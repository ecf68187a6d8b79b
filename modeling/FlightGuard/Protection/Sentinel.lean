import FlightGuard.Configuration.Basic
import FlightGuard.Landing.Classification
import FlightGuard.Link
import FlightGuard.Protection.Cooldown
import FlightGuard.Telemetry
import FlightGuard.Waypoint

/-!
# Protective decisions

Each tick looks at the situation once and answers with the signals to send.  In safe landing mode
a vehicle that is landing where it cannot, or where nothing is known, is given the configured
reaction.  In collision avoidance mode a vehicle in the air is given one when an obstacle is
close.  Each reaction starts the cooldown.

Safe landing also watches for the arrival at the active target, which may be followed by one
attempt to land there.
-/

namespace FlightGuard

/-- What a tick looks at. -/
structure Situation where
  configuration : Configuration
  telemetry : Telemetry
  landing : Landing.Classification
  obstacle : Float32
deriving DecidableEq

/-- What ticks remember: the cooldown and the waypoints commanded. -/
structure Sentinel where
  cooldown : Cooldown
  waypoints : WaypointMemory
deriving DecidableEq

namespace Sentinel

/-- No reaction took place and nothing was commanded. -/
def idle : Sentinel := ⟨.idle, .empty⟩

/-- The heading of a reposition that leaves the heading to the autopilot. -/
def anyHeading : Float := unknownNumber

/-- What a reaction sends, and where it sends the vehicle, if anywhere. -/
structure Response where
  command : FlightCommand
  message : Option (Severity × String)
  target : Option GlobalPosition
deriving DecidableEq

namespace Response

/-- A command with a message to the operator. -/
def announced (command : FlightCommand) (severity : Severity) (text : String) : Response :=
  ⟨command, some (severity, text), none⟩

/-- A command without a message. -/
def silent (command : FlightCommand) : Response :=
  ⟨command, none, none⟩

/-- A reposition with a message to the operator. -/
def reposition (position : GlobalPosition) (text : String) : Response :=
  ⟨.goTo position anyHeading, some (.info, text ++ position.text), some position⟩

/-- The hold that stands in for a reaction without a meaning under a policy. -/
def unsupported (reaction : Reaction) (policy : String) : Response :=
  announced .hold .warning
    (reaction.name ++ " action not supported for " ++ policy ++ ". Holding position...")

/-- The signals of a response, the command first. -/
def signals (response : Response) : List Signal :=
  .command response.command
    :: (response.message.map fun message => Signal.message message.1 message.2).toList

end Response

/-- The target of a move by body offset, if it is known and finite. -/
def offsetTarget? (policy : LandingPolicy) (telemetry : Telemetry) : Option GlobalPosition :=
  ((telemetry.projectBodyOffset policy.offset.forward policy.offset.right).map fun place =>
    (⟨place.1, place.2, telemetry.position.altitude + policy.offset.up⟩ : GlobalPosition)).filter
      GlobalPosition.isFinite

/-- The reaction to a site where the vehicle cannot land. -/
def landingResponse (policy : LandingPolicy) (telemetry : Telemetry)
    (waypoints : WaypointMemory) : Response :=
  match policy.reaction with
  | .hold => .announced .hold .info "Position hold triggered for Safe Landing"
  | .returnToLaunch => .announced .returnToLaunch .info "RTL triggered for Safe Landing"
  | .moveByBodyOffset =>
      match offsetTarget? policy telemetry with
      | some position =>
          .reposition position "Moving XYZ WRT current position triggered. Heading to "
      | none =>
          .announced .hold .warning
            "Local position or origin unknown, cannot move XYZ. Holding position..."
  | .goToWaypoint =>
      if waypoints.wasCommanded policy.waypoint then
        .announced .returnToLaunch .warning
          "Waypoint already visited without a safe landing spot. RTL triggered instead..."
      else .reposition policy.waypoint "Go-To global waypoint triggered. Heading to "
  | other => .unsupported other "Safe Landing"

/-- The reaction to a landing vehicle and its classified site, if there has to be one. -/
def landingDanger (policy : LandingPolicy) (situation : Situation)
    (waypoints : WaypointMemory) : Option Response :=
  if situation.telemetry.phase = .landing then
    match situation.landing with
    | .unknown => some (.announced .hold .warning "Unknown landing state. Holding...")
    | .cannotLand => some (landingResponse policy situation.telemetry waypoints)
    | _ => none
  else none

/-- The reaction to a close obstacle. -/
def avoidanceResponse (policy : AvoidancePolicy) : Response :=
  match policy.reaction with
  | .hold => .silent .hold
  | .returnToLaunch => .silent .returnToLaunch
  | .land => .silent .land
  | other => .unsupported other "Collision Avoidance"

/-- Whether an obstacle is not known to be farther away than the threshold. -/
def isClose (policy : AvoidancePolicy) (distance : Float32) : Bool :=
  distance.isFinite && !(policy.threshold < distance)

/-- The reaction to the obstacle ahead of a vehicle in the air, if there has to be one. -/
def avoidanceDanger (policy : AvoidancePolicy) (situation : Situation) : Option Response :=
  if situation.telemetry.phase = .inAir ∧ isClose policy situation.obstacle then
    some (avoidanceResponse policy)
  else none

/-- The mode that runs: the configured one where both its switches are on. -/
def activeMode (configuration : Configuration) : Mode :=
  if !configuration.enabled then .disabled
  else
    match configuration.mode with
    | .safeLanding => if configuration.landing.enabled then .safeLanding else .disabled
    | .collisionAvoidance =>
        if configuration.avoidance.enabled then .collisionAvoidance else .disabled
    | .disabled => .disabled

/-- The reaction that a situation calls for, the cooldown left aside. -/
def danger (situation : Situation) (waypoints : WaypointMemory) : Option Response :=
  match activeMode situation.configuration with
  | .safeLanding => landingDanger situation.configuration.landing situation waypoints
  | .collisionAvoidance => avoidanceDanger situation.configuration.avoidance situation
  | .disabled => none

/-- Carries out the reaction to a danger unless the cooldown blocks it. -/
def react (sentinel : Sentinel) (situation : Situation) (now : Int) : Sentinel × List Signal :=
  if sentinel.cooldown.triggered then (sentinel, [])
  else
    match danger situation sentinel.waypoints with
    | some response =>
        (⟨sentinel.cooldown.mark now,
          match response.target with
          | some position => sentinel.waypoints.command position
          | none => sentinel.waypoints⟩,
         response.signals)
    | none => (sentinel, [])

/--
Clears a target that the vehicle has reached and, if the policy says so and the vehicle is not on
the ground yet, lets it land there.
-/
def arrive (sentinel : Sentinel) (situation : Situation) : Sentinel × List Signal :=
  if activeMode situation.configuration = .safeLanding
      ∧ sentinel.waypoints.hasArrived situation.telemetry.position then
    ({ sentinel with waypoints := sentinel.waypoints.clear },
     if situation.configuration.landing.retryLanding
        ∧ situation.telemetry.phase ≠ .onGround then [.command .land] else [])
  else (sentinel, [])

/-- One tick: the cooldown runs out, a danger is reacted to, and an arrival is noticed. -/
def tick (sentinel : Sentinel) (situation : Situation) (now : Int) : Sentinel × List Signal :=
  let rested := { sentinel with cooldown := sentinel.cooldown.expire now }
  let (reacted, reaction) := rested.react situation now
  let (arrived, arrival) := reacted.arrive situation
  (arrived, reaction ++ arrival)

end Sentinel

end FlightGuard
