import FlightGuard.Configuration.Provision
import FlightGuard.Protection.Watch
import FlightGuard.Runner.Clock

/-!
# The supervisor

The supervisor waits for an autopilot, then lets the watch and the action runner work side by side
over one link.  The watch ticks twenty times a second from the start on.  A request to stop ends
the watch at once and the runner after its actions; the supervisor has stopped when both have.

The clock counts milliseconds.  The wall clock of the ticks is an instant given at the start.
-/

namespace FlightGuard

/-- Why there is nothing to supervise. -/
inductive StartupError where
  | discoveryTimeout (limit : Duration)
  | link (error : LinkError)
deriving DecidableEq, Repr

namespace StartupError

/-- The text of a startup error. -/
def message : StartupError → String
  | discoveryTimeout limit => "no autopilot discovered within " ++ limit.unitText
  | link error => "vehicle link failed during discovery: " ++ error.name

/-- The error of the link behind a startup error. -/
def cause? : StartupError → Option LinkError
  | discoveryTimeout _ => none
  | link error => some error

end StartupError

/-- How the search for an autopilot goes: when it ends, if it does, and whether it fails. -/
structure Discovery where
  delay : Option Nat
  failure : Option LinkError
deriving DecidableEq, Repr

namespace Discovery

/-- The time limit of a discovery that is not given one. -/
def defaultLimit : Duration := .ofWholeSeconds 10

/-- The milliseconds until the link is there; an end at the very limit is in time. -/
def outcome (discovery : Discovery) (limit : Duration) : Except StartupError Nat :=
  match discovery.delay with
  | none => .error (.discoveryTimeout limit)
  | some delay =>
      if delay ≤ limit.waitMilliseconds then
        match discovery.failure with
        | some error => .error (.link error)
        | none => .ok delay
      else .error (.discoveryTimeout limit)

end Discovery

/--
The watch with the instant of its next tick and what it has sent, the latest first, beside the
runner.
-/
structure Supervisor where
  clock : Nat
  wallClock : Int
  watch : Watch
  nextTick : Option Nat
  sent : List (Nat × Transmission)
  runner : Runner

namespace Supervisor

/-- Milliseconds between two ticks of the watch. -/
def tickInterval : Nat := 50

/-- Lets the watch tick at an instant and sets the next tick. -/
def tickAt (supervisor : Supervisor) (link : Link) (instant : Nat) : Supervisor :=
  let feeds := { supervisor.watch.feeds with clock := instant * 1000 }
  let (watch, sent) := { supervisor.watch with feeds }.tick link supervisor.wallClock
  { supervisor with
      watch
      nextTick := some (instant + tickInterval)
      sent := (sent.map fun transmission => (instant, transmission)).reverse ++ supervisor.sent }

/-- Performs all ticks after an instant up to a target. -/
def tickThrough (link : Link) (target now : Nat) (supervisor : Supervisor) : Supervisor :=
  match supervisor.nextTick with
  | some instant =>
      if now < instant ∧ instant ≤ target then
        tickThrough link target instant (supervisor.tickAt link instant)
      else supervisor
  | none => supervisor
termination_by target - now
decreasing_by omega

/-- A supervisor at the instant at which the autopilot was found. -/
def begin (configuration : Configuration) (link : Link) (wallClock : Int) (clock : Nat) :
    Supervisor :=
  let idle : Supervisor :=
    ⟨clock, wallClock, .initial configuration, none, [], .initial clock⟩
  { idle.tickAt link clock with runner := idle.runner.settle link }

/-- Waits for the autopilot and begins, or says why there is none. -/
def start (discovery : Discovery) (limit : Duration) (configuration : Configuration)
    (link : Link) (wallClock : Int) : Except StartupError Supervisor :=
  (discovery.outcome limit).map (begin configuration link wallClock)

/-- Lets time pass until a target, which does nothing when the target is past. -/
def runTo (supervisor : Supervisor) (link : Link) (target : Nat) : Supervisor :=
  if supervisor.clock ≤ target then
    let ticked := tickThrough link target supervisor.clock supervisor
    { ticked with
        clock := target
        watch := { ticked.watch with feeds := { ticked.watch.feeds with clock := target * 1000 } }
        runner := supervisor.runner.runTo link target }
  else supervisor

/-- Takes in news of a feed. -/
def update (supervisor : Supervisor) (news : Feed) : Supervisor :=
  { supervisor with watch := supervisor.watch.update news }

/-- Changes the runner on behalf of a client, and lets it do what is possible then. -/
def serve (supervisor : Supervisor) (link : Link) (change : Runner → Runner) : Supervisor :=
  { supervisor with runner := (change supervisor.runner).settle link }

/-- Asks both to stop: the watch ends at once, the runner when it has nothing left to do. -/
def stop (supervisor : Supervisor) (link : Link) : Supervisor :=
  { supervisor.serve link Runner.stop with nextTick := none }

/-- Whether a request to stop has been carried out. -/
def hasStopped (supervisor : Supervisor) : Bool :=
  supervisor.runner.stopping && supervisor.runner.hasStopped

end Supervisor

end FlightGuard
