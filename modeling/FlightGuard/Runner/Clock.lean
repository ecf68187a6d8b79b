import FlightGuard.Runner.Work

/-!
# Running through time

`settle` performs all sections that are possible at an instant; it ends because each of them
lowers `work`.  `runTo` moves the clock from one due instant to the next until it reaches its
target, and settles at each of them.
-/

namespace FlightGuard

/-- The instant that an activity waits for, if it waits for one. -/
def Activity.due? : Activity → Option Nat
  | .calling _ _ _ due _ => due
  | .resting _ _ deadline => some deadline
  | .awaiting due _ => due
  | .settling deadline => some deadline
  | _ => none

namespace Runner

/-- Performs all sections that are possible at the present instant. -/
def settle (runner : Runner) (link : Link) : Runner :=
  match _performed : runner.nextSection link with
  | some next => next.settle link
  | none => runner
termination_by runner.work
decreasing_by exact work_nextSection_lt _performed

/-! ## Time -/

/-- The instant that the worker waits for, if it waits for one. -/
def workerDue? (runner : Runner) : Option Nat :=
  match runner.worker with
  | .busy _ activity => activity.due?
  | _ => none

/-- The earlier of two instants, either of which may be missing. -/
def earlier : Option Nat → Option Nat → Option Nat
  | some first, some second => some (min first second)
  | some first, none => some first
  | none, second => second

/-- The first instant at which the worker or the reporter can act again. -/
def due? (runner : Runner) : Option Nat :=
  earlier runner.workerDue? runner.reporter

/-- Moves the clock to an instant and performs all that is possible then. -/
def settleAt (runner : Runner) (link : Link) (instant : Nat) : Runner :=
  { runner with clock := instant }.settle link

/--
Goes on from one due instant to the next up to a target.  An instant that is already past is
taken to be settled.
-/
def advance (link : Link) (target now : Nat) (runner : Runner) : Runner :=
  match runner.due? with
  | some instant =>
      if now < instant ∧ instant ≤ target then
        advance link target instant (runner.settleAt link instant)
      else { runner with clock := target }
  | none => { runner with clock := target }
termination_by target - now
decreasing_by omega

/-- Lets time pass until a target, which does nothing when the target is past. -/
def runTo (runner : Runner) (link : Link) (target : Nat) : Runner :=
  if runner.clock ≤ target then advance link target runner.clock runner else runner

end Runner

end FlightGuard
