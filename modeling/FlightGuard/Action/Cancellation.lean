/-!
# Cancellation

A cancel signal is a flag that its owner raises and lowers, until it is released.  Any number of
tokens read it; a token of a released signal keeps reading the last value.

A cancellable wait ends at the first instant at which the flag is up, or when its time is over.
-/

namespace FlightGuard

/-- The flag, and whether the owner has let go of it. -/
structure CancelSignal where
  raised : Bool
  released : Bool
deriving DecidableEq, Repr

namespace CancelSignal

/-- A signal that was never raised. -/
def fresh : CancelSignal := ⟨false, false⟩

/-- What an owner does to a signal. -/
inductive Change where
  | set (raised : Bool)
  | release
deriving DecidableEq, Repr

/-- Changes a signal; nobody can set the flag of a released one. -/
def apply (signal : CancelSignal) : Change → CancelSignal
  | .set raised => if signal.released then signal else { signal with raised }
  | .release => { signal with released := true }

/-- What a cancellable wait has come to at an instant, if it is over. -/
def poll (raised : Bool) (now deadline : Nat) : Option Bool :=
  if raised then some true
  else if deadline ≤ now then some false
  else none

/--
Waits from an instant on until the flag is up or the deadline is there, while changes take place
at their instants in rising order.  Gives whether the wait was cancelled, and when it ended.  A
change at the deadline is too late.
-/
def wait (signal : CancelSignal) (now deadline : Nat) : List (Nat × Change) → Bool × Nat
  | [] => if poll signal.raised now deadline = some true then (true, now) else (false, deadline)
  | (instant, change) :: changes =>
      match poll signal.raised now deadline with
      | some cancelled => (cancelled, now)
      | none =>
          if deadline ≤ instant then (false, deadline)
          else (signal.apply change).wait (max now instant) deadline changes

end CancelSignal

end FlightGuard
