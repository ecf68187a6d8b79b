import FlightGuard.Landing.Debouncer

/-!
# Landing monitor

The monitor holds the debounced classification between the mapper and the decisions.  A reading
counts for half a second after it was pushed and is `unknown` afterwards, except that a vehicle
last seen close to the ground stays `closeToGround`.

Instants are microseconds of a clock that never runs backwards.
-/

namespace FlightGuard.Landing

/-- The debouncer, the classification it settled on, and the instant of the latest push. -/
structure Monitor where
  debouncer : Debouncer
  stabilized : Classification
  updatedAt : Option Nat
deriving DecidableEq, Repr

namespace Monitor

/-- How long a reading counts, in microseconds. -/
def staleAfter : Nat := 500000

/-- A monitor that has seen nothing. -/
def empty : Monitor := ⟨.empty, .unknown, none⟩

/-- Feeds one raw value at an instant; the answer is the `stabilized` value of the result. -/
def push (monitor : Monitor) (now : Nat) (raw : Classification) : Monitor :=
  let debouncer := monitor.debouncer.push raw
  ⟨debouncer, debouncer.emitted, some now⟩

/-- The mapper ran without usable depth data: all but `closeToGround` decays to `unknown`. -/
def markNoData (monitor : Monitor) : Monitor :=
  if monitor.stabilized = .closeToGround then monitor
  else { monitor with stabilized := .unknown }

/-- Whether the latest push is recent enough to count. -/
def isFresh (monitor : Monitor) (now : Nat) : Bool :=
  monitor.updatedAt.any fun instant => now - instant ≤ staleAfter

/-- The classification that decisions see at an instant. -/
def current (monitor : Monitor) (now : Nat) : Classification :=
  if monitor.isFresh now ∨ monitor.stabilized = .closeToGround then monitor.stabilized
  else .unknown

end Monitor

end FlightGuard.Landing
