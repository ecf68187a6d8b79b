import FlightGuard.Position.Local

/-!
# Telemetry

The latest known state of the vehicle.  Each report replaces its own part of the state and
nothing else; all numbers are unknown until they are first reported.
-/

namespace FlightGuard

/-- Contact with the ground as the autopilot reports it. -/
inductive FlightPhase where
  | inAir
  | takingOff
  | landing
  | onGround
  | unknown
deriving DecidableEq, Repr

/-- Velocity in meters per second north, east and down. -/
structure Velocity where
  north : Float
  east : Float
  down : Float
deriving DecidableEq

/-- The velocity of a vehicle that has not reported one. -/
def Velocity.unknown : Velocity := ⟨unknownNumber, unknownNumber, unknownNumber⟩

/-- The state of the vehicle; the heading is in radians. -/
structure Telemetry where
  position : GlobalPosition
  localPosition : LocalPosition
  velocity : Velocity
  yaw : Float
  phase : FlightPhase
  origin : Option Origin
deriving DecidableEq

namespace Telemetry

/-- Nothing was reported yet. -/
def unknown : Telemetry :=
  ⟨.unknown, .unknown, .unknown, unknownNumber, .unknown, none⟩

/-- One report of the autopilot. -/
inductive Report where
  | position (value : GlobalPosition)
  | motion (position : LocalPosition) (velocity : Velocity)
  | heading (degrees : Float)
  | phase (value : FlightPhase)
  | origin (value : Origin)
deriving DecidableEq

/-- Takes in a report. -/
def update (telemetry : Telemetry) : Report → Telemetry
  | .position value => { telemetry with position := value }
  | .motion position velocity =>
      { telemetry with localPosition := position, velocity := velocity }
  | .heading degrees => { telemetry with yaw := radiansOfDegrees degrees }
  | .phase value => { telemetry with phase := value }
  | .origin value => { telemetry with origin := some value }

/--
Latitude and longitude of a point given in meters forward and to the right of the vehicle, or
nothing while the origin, the local position or the heading is not known.
-/
def projectBodyOffset (telemetry : Telemetry) (forward right : Float) : Option (Float × Float) :=
  let here := telemetry.localPosition
  if here.north.isFinite && here.east.isFinite && telemetry.yaw.isFinite then
    telemetry.origin.map (·.project (here.offsetByBody forward right telemetry.yaw))
  else none

end Telemetry

end FlightGuard
