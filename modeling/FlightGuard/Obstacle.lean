/-!
# Obstacle monitor

The latest distance to the closest obstacle ahead.  A distance counts for half a second; before
the first one and after that time the distance is not a number.
-/

namespace FlightGuard.Obstacle

/-- The latest distance in meters and the instant, in microseconds, at which it came in. -/
structure Monitor where
  latest : Option (Float32 × Nat)
deriving DecidableEq

namespace Monitor

/-- How long a distance counts, in microseconds. -/
def staleAfter : Nat := 500000

/-- The distance that stands for "nothing known". -/
def noDistance : Float32 := 0 / 0

/-- A monitor that has seen nothing. -/
def empty : Monitor := ⟨none⟩

/-- Takes in a distance at an instant, of any age and value the one before. -/
def update (_ : Monitor) (now : Nat) (distance : Float32) : Monitor :=
  ⟨some (distance, now)⟩

/-- The distance that decisions see at an instant. -/
def distance (monitor : Monitor) (now : Nat) : Float32 :=
  match monitor.latest with
  | some (distance, instant) => if now - instant ≤ staleAfter then distance else noDistance
  | none => noDistance

end Monitor

end FlightGuard.Obstacle
