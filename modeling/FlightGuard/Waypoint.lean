import FlightGuard.Position.Global

/-!
# Waypoint memory

The vehicle has at most one active reposition target.  The waypoint commanded last is remembered
longer than the target: it stays when the target has been reached and cleared, so that a visited
waypoint is recognised.
-/

namespace FlightGuard

/-- The active target and the waypoint commanded last. -/
structure WaypointMemory where
  target : Option GlobalPosition
  lastCommanded : Option GlobalPosition
deriving DecidableEq

namespace WaypointMemory

/-- Nothing was ever commanded. -/
def empty : WaypointMemory := ⟨none, none⟩

/-- A new target takes the place of any earlier one. -/
def command (_ : WaypointMemory) (position : GlobalPosition) : WaypointMemory :=
  ⟨some position, some position⟩

/-- Drops the active target and keeps the waypoint commanded last. -/
def clear (memory : WaypointMemory) : WaypointMemory :=
  { memory with target := none }

/-- Whether a position is the waypoint commanded last, reached or not. -/
def wasCommanded (memory : WaypointMemory) (position : GlobalPosition) : Bool :=
  memory.lastCommanded.any (·.isNear position)

/-- Whether a position lies in the acceptance box of the active target. -/
def hasArrived (memory : WaypointMemory) (position : GlobalPosition) : Bool :=
  memory.target.any (·.isNear position)

end WaypointMemory

end FlightGuard
