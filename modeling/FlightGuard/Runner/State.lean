import FlightGuard.Action.Cancellation
import FlightGuard.Action.Intake
import FlightGuard.Link

/-!
# The state of the action runner

The runner executes accepted actions one at a time.  Its worker goes through the sections of an
action one by one, while a reporter tells the autopilot every tenth of a second how far the
action has come.  Clients submit actions, cancel the running one, and ask the runner to stop.

The clock counts milliseconds.  The journal holds all that passed over the link, the latest entry
first.
-/

namespace FlightGuard

/-- How a script call ends: the answer of the script, or its time limit. -/
inductive Verdict where
  | answered (outcome : Except LinkError Outcome)
  | timedOut

/-- What the worker is about to do, or waits for, in the course of an action. -/
inductive Activity where
  /-- About to create the record of the action and to start the reporter. -/
  | opening
  /-- About to call the first of the remaining stages. -/
  | staging (done : Nat) (remaining : List Stage)
  /-- Waits for the answer to a stage, which comes at an instant or never. -/
  | calling (done : Nat) (stage : Stage) (remaining : List Stage) (due : Option Nat)
      (answer : Except LinkError Outcome)
  /-- Waits behind a stage. -/
  | resting (done : Nat) (remaining : List Stage) (deadline : Nat)
  /-- About to call the script. -/
  | scripting
  /-- Waits for the end of the script, which comes at an instant or never. -/
  | awaiting (due : Option Nat) (verdict : Verdict)
  /-- Lets the last report through before the record is given up. -/
  | settling (deadline : Nat)
  /-- Waits for the reporter to end. -/
  | lingering
  /-- About to drop a cancellation that came too late. -/
  | sweeping
  /-- About to strike the action off the history. -/
  | retiring

/-- Where the worker stands. -/
inductive Worker where
  /-- About to look for a pending action. -/
  | looking
  /-- Waits for a wake-up or for the request to stop. -/
  | parked
  /-- Executes an action. -/
  | busy (job : Job) (activity : Activity)
  /-- Has stopped on request. -/
  | ended
  /-- Was brought down by a time that no duration holds. -/
  | failed

/-- What passes over the link on behalf of actions. -/
inductive JournalEntry where
  | stageCalled (instant : Nat) (stage : Stage)
  | stageAnswered (instant : Nat) (answer : Except LinkError Outcome)
  | scriptCalled (instant : Nat) (script : String)
  | reported (instant : Nat) (report : ProgressReport) (answer : Option LinkError)

/-- The runner with all that its worker, its reporter and its clients share. -/
structure Runner where
  clock : Nat
  intake : Intake
  wakeUp : Bool
  record : Option Execution
  signal : CancelSignal
  stopping : Bool
  worker : Worker
  reporter : Option Nat
  journal : List JournalEntry

namespace Runner

/-- Milliseconds between two progress reports. -/
def reportInterval : Nat := 100

/-- Milliseconds between the end of an action and the end of its record. -/
def settleTime : Nat := 500

/-- A runner at an instant, whose worker is about to look for work. -/
def initial (clock : Nat) : Runner :=
  ⟨clock, .empty, false, none, .fresh, false, .looking, none, []⟩

/-- Whether the worker will never act again. -/
def hasStopped (runner : Runner) : Bool :=
  match runner.worker with
  | .ended | .failed => true
  | _ => false

/-! ## Clients -/

/-- Offers an action to the intake, without waking the worker. -/
def offer (runner : Runner) (action : CustomAction) : Except Rejection (Nat × Runner) :=
  (runner.intake.offer action (runner.clock * 1000)).map fun (order, intake) =>
    (order, { runner with intake })

/-- Wakes the worker, now or when it next parks. -/
def wake (runner : Runner) : Runner :=
  { runner with wakeUp := true }

/-- Submits an action: its place in the order of acceptance, or the reason of the rejection. -/
def submit (runner : Runner) (action : CustomAction) : Except Rejection (Nat × Runner) :=
  (runner.offer action).map fun (order, offered) => (order, offered.wake)

/-- Submits the action with a number in a catalog file. -/
def request (runner : Runner) (file : StoredFile) (path : String) (id : UInt32) :
    Except Rejection (Nat × Runner) := do
  runner.submit (← Catalog.lookUp file path id)

/-- Whether an action is there that can still be cancelled. -/
def isCancellable (runner : Runner) : Bool :=
  runner.record.any fun execution => !execution.consumed

/-- Raises or lowers the cancellation; raising is ignored when there is nothing to cancel. -/
def cancel (runner : Runner) (raised : Bool) : Runner :=
  if raised && !runner.isCancellable then runner
  else { runner with signal := runner.signal.apply (.set raised) }

/-- Asks the worker to stop. -/
def stop (runner : Runner) : Runner :=
  { runner with stopping := true }

end Runner

end FlightGuard
