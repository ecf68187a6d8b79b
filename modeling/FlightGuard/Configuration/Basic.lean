import FlightGuard.Position.Global

/-!
# Operator configuration

The operator chooses one mode of protection and, for each mode, the reaction to a danger.  A
configuration that says nothing protects nothing: every switch is off by default.
-/

namespace FlightGuard

/-- Which policy runs. -/
inductive Mode where
  | safeLanding
  | collisionAvoidance
  | disabled
deriving DecidableEq, Repr

/-- What to do in danger; `unsupported` stands for every reaction without a meaning. -/
inductive Reaction where
  | hold
  | returnToLaunch
  | land
  | moveByBodyOffset
  | goToWaypoint
  | goToLocalWaypoint
  | moveByAngles
  | callScript
  | callService
  | unsupported
deriving DecidableEq, Repr

/-- The name of a reaction in messages to the operator. -/
def Reaction.name : Reaction → String
  | .hold => "Hold"
  | .returnToLaunch => "ReturnToLaunch"
  | .land => "Land"
  | .moveByBodyOffset => "MoveXyzWrtCurrent"
  | .goToWaypoint => "GoToWaypoint"
  | .goToLocalWaypoint => "GoToWaypointXyz"
  | .moveByAngles => "MoveLlaWrtCurrent"
  | .callScript => "ScriptCall"
  | .callService => "ApiCall"
  | .unsupported => "Unsupported"

/-- Meters forward and to the right of the vehicle, and meters up. -/
structure BodyOffset where
  forward : Float
  right : Float
  up : Float
deriving DecidableEq

/-- The policy for landing where the ground allows it. -/
structure LandingPolicy where
  enabled : Bool
  reaction : Reaction
  retryLanding : Bool
  waypoint : GlobalPosition
  offset : BodyOffset
deriving DecidableEq

/-- The policy for obstacles ahead; the threshold is in meters. -/
structure AvoidancePolicy where
  enabled : Bool
  threshold : Float32
  reaction : Reaction
deriving DecidableEq

/-- The whole configuration. -/
structure Configuration where
  enabled : Bool
  mode : Mode
  landing : LandingPolicy
  avoidance : AvoidancePolicy
deriving DecidableEq

/-- The waypoint that is configured where none is given. -/
def GlobalPosition.zero : GlobalPosition := ⟨0, 0, 0⟩

/-- No offset. -/
def BodyOffset.zero : BodyOffset := ⟨0, 0, 0⟩

/-- Landing protection that is switched off. -/
def LandingPolicy.default : LandingPolicy := ⟨false, .hold, false, .zero, .zero⟩

/-- Obstacle protection that is switched off, with a threshold of one meter. -/
def AvoidancePolicy.default : AvoidancePolicy := ⟨false, 1, .hold⟩

namespace Configuration

/-- The configuration that protects nothing. -/
def default : Configuration := ⟨false, .disabled, .default, .default⟩

/-- Whether two configurations agree, numbers compared as numbers. -/
def agrees (first second : Configuration) : Bool :=
  first.enabled == second.enabled
    && first.mode == second.mode
    && first.landing.enabled == second.landing.enabled
    && first.landing.reaction == second.landing.reaction
    && first.landing.retryLanding == second.landing.retryLanding
    && first.landing.waypoint.latitude == second.landing.waypoint.latitude
    && first.landing.waypoint.longitude == second.landing.waypoint.longitude
    && first.landing.waypoint.altitude == second.landing.waypoint.altitude
    && first.landing.offset.forward == second.landing.offset.forward
    && first.landing.offset.right == second.landing.offset.right
    && first.landing.offset.up == second.landing.offset.up
    && first.avoidance.enabled == second.avoidance.enabled
    && first.avoidance.threshold == second.avoidance.threshold
    && first.avoidance.reaction == second.avoidance.reaction

/-- Whether every number of a configuration is finite. -/
def isFinite (configuration : Configuration) : Bool :=
  configuration.landing.waypoint.isFinite
    && configuration.landing.offset.forward.isFinite
    && configuration.landing.offset.right.isFinite
    && configuration.landing.offset.up.isFinite
    && configuration.avoidance.threshold.isFinite

end Configuration

end FlightGuard
