import FlightGuard.Proofs.Watch.Repositions

/-!
# Reactions and their messages

A tick that fires always sends a command.  For a guarded landing a message to the operator comes
right behind it.  It is an info where the configured reaction could be carried out as it is, and a
warning where another command had to stand in for it.  A guarded flight knows three reactions that
go without a message, and holds with a warning in place of all others.

The configured reactions and the commands that they stand for are given as relations here, apart
from the way in which a tick comes to its response.
-/

namespace FlightGuard

/--
The command that a policy for landings stands for, the waypoint commanded last being known.  There
is none for a reaction that means nothing to a landing, for an offset without a finite target, and
for a waypoint near the one commanded last.
-/
inductive LandingPolicy.Commands (policy : LandingPolicy) (telemetry : Telemetry)
    (latest : Option GlobalPosition) : FlightCommand → Prop where
  | holds (named : policy.reaction = .hold) : Commands policy telemetry latest .hold
  | returns (named : policy.reaction = .returnToLaunch) :
      Commands policy telemetry latest .returnToLaunch
  | moves {latitude longitude : Float} (named : policy.reaction = .moveByBodyOffset)
      (projected : telemetry.projectBodyOffset policy.offset.forward policy.offset.right =
        some (latitude, longitude))
      (finite : GlobalPosition.isFinite
        ⟨latitude, longitude, telemetry.position.altitude + policy.offset.up⟩ = true) :
      Commands policy telemetry latest
        (.goTo ⟨latitude, longitude, telemetry.position.altitude + policy.offset.up⟩
          Sentinel.anyHeading)
  | goes (named : policy.reaction = .goToWaypoint)
      (distant : ∀ position ∈ latest, ¬ position.isNear policy.waypoint = true) :
      Commands policy telemetry latest (.goTo policy.waypoint Sentinel.anyHeading)

/-- The command that stands in for a reaction to a site that cannot be carried out. -/
def LandingPolicy.fallback (policy : LandingPolicy) : FlightCommand :=
  if policy.reaction = .goToWaypoint then .returnToLaunch else .hold

/-- The command that a policy for obstacles stands for. -/
inductive AvoidancePolicy.Commands (policy : AvoidancePolicy) : FlightCommand → Prop where
  | holds (named : policy.reaction = .hold) : Commands policy .hold
  | returns (named : policy.reaction = .returnToLaunch) : Commands policy .returnToLaunch
  | lands (named : policy.reaction = .land) : Commands policy .land

namespace Sentinel

/-- A command with a message to the operator that says something. -/
structure Response.Announces (response : Response) (command : FlightCommand)
    (severity : Severity) : Prop where
  command : response.command = command
  message : ∃ text, response.message = some (severity, text) ∧ text ≠ ""

theorem Response.announced_announces (command : FlightCommand) (severity : Severity)
    {text : String} (said : text ≠ "") :
    (Response.announced command severity text).Announces command severity :=
  ⟨rfl, text, rfl, said⟩

theorem Response.reposition_announces (position : GlobalPosition) {text : String}
    (said : text ≠ "") :
    (Response.reposition position text).Announces (.goTo position anyHeading) .info :=
  ⟨rfl, _, rfl, by simp [said]⟩

theorem Response.unsupported_announces (reaction : Reaction) (policy : String) :
    (Response.unsupported reaction policy).Announces .hold .warning :=
  ⟨rfl, _, rfl, by simp⟩

theorem Response.Announces.signals {response : Response} {command : FlightCommand}
    {severity : Severity} (announces : response.Announces command severity) :
    ∃ text, text ≠ "" ∧ response.signals = [.command command, .message severity text] := by
  rcases announces.message with ⟨text, message, said⟩
  refine ⟨text, said, ?_⟩
  rw [Response.signals, announces.command, message]
  rfl

/-- A target is known when the projected offset is finite, and is the place of that offset. -/
theorem offsetTarget_eq_some_iff (policy : LandingPolicy) (telemetry : Telemetry)
    (position : GlobalPosition) :
    offsetTarget? policy telemetry = some position ↔
      ∃ latitude longitude,
        telemetry.projectBodyOffset policy.offset.forward policy.offset.right =
            some (latitude, longitude)
          ∧ position = ⟨latitude, longitude, telemetry.position.altitude + policy.offset.up⟩
          ∧ position.isFinite = true := by
  rw [offsetTarget?, Option.filter_eq_some_iff, Option.map_eq_some_iff]
  constructor
  · rintro ⟨⟨place, projected, rfl⟩, finite⟩
    exact ⟨place.1, place.2, projected, rfl, finite⟩
  · rintro ⟨latitude, longitude, projected, rfl, finite⟩
    exact ⟨⟨(latitude, longitude), projected, rfl⟩, finite⟩

/--
A landing that cannot go on is answered with the command of its policy and an info, or with what
stands in for it and a warning.
-/
theorem landingResponse_announces (policy : LandingPolicy) (telemetry : Telemetry)
    (waypoints : WaypointMemory) :
    (∃ command, policy.Commands telemetry waypoints.lastCommanded command
        ∧ (landingResponse policy telemetry waypoints).Announces command .info)
      ∨ ((∀ command, ¬ policy.Commands telemetry waypoints.lastCommanded command)
        ∧ (landingResponse policy telemetry waypoints).Announces policy.fallback .warning) := by
  cases named : policy.reaction with
  | hold =>
      rw [landingResponse, named]
      exact Or.inl ⟨_, .holds named, Response.announced_announces _ _ (by decide)⟩
  | returnToLaunch =>
      rw [landingResponse, named]
      exact Or.inl ⟨_, .returns named, Response.announced_announces _ _ (by decide)⟩
  | moveByBodyOffset =>
      rw [landingResponse, LandingPolicy.fallback, named]
      cases known : offsetTarget? policy telemetry with
      | some position =>
          rcases (offsetTarget_eq_some_iff _ _ _).mp known with
            ⟨latitude, longitude, projected, rfl, finite⟩
          exact Or.inl ⟨_, .moves named projected finite,
            Response.reposition_announces _ (by decide)⟩
      | none =>
          refine Or.inr ⟨?_, Response.announced_announces _ _ (by decide)⟩
          intro command commands
          cases commands with
          | moves _ projected finite =>
              have target := (offsetTarget_eq_some_iff policy telemetry _).mpr
                ⟨_, _, projected, rfl, finite⟩
              rw [known] at target
              cases target
          | holds other | returns other | goes other _ =>
              cases named.symm.trans other
  | goToWaypoint =>
      have recalled := waypoints.wasCommanded_iff policy.waypoint
      rw [landingResponse, LandingPolicy.fallback, named]
      cases visited : waypoints.wasCommanded policy.waypoint with
      | true =>
          refine Or.inr ⟨?_, Response.announced_announces _ _ (by decide)⟩
          rcases recalled.mp visited with ⟨latest, remembered, near⟩
          intro command commands
          cases commands with
          | goes _ distant => exact distant latest remembered near
          | holds other | returns other | moves other _ _ =>
              cases named.symm.trans other
      | false =>
          refine Or.inl ⟨_, .goes named ?_, Response.reposition_announces _ (by decide)⟩
          intro position remembered near
          rw [recalled.mpr ⟨position, remembered, near⟩] at visited
          cases visited
  | land | goToLocalWaypoint | moveByAngles | callScript | callService | unsupported =>
      rw [landingResponse, LandingPolicy.fallback, named]
      refine Or.inr ⟨?_, Response.unsupported_announces _ _⟩
      intro command commands
      cases commands with
      | holds other | returns other | moves other _ _ | goes other _ =>
          cases named.symm.trans other

/-- An obstacle is answered with the command of its policy alone, or with a hold and a warning. -/
theorem avoidanceResponse_cases (policy : AvoidancePolicy) :
    (∃ command, policy.Commands command ∧ avoidanceResponse policy = .silent command)
      ∨ ((∀ command, ¬ policy.Commands command)
        ∧ (avoidanceResponse policy).Announces .hold .warning) := by
  rw [avoidanceResponse]
  cases named : policy.reaction with
  | hold => exact Or.inl ⟨_, .holds named, rfl⟩
  | returnToLaunch => exact Or.inl ⟨_, .returns named, rfl⟩
  | land => exact Or.inl ⟨_, .lands named, rfl⟩
  | moveByBodyOffset | goToWaypoint | goToLocalWaypoint | moveByAngles | callScript | callService
  | unsupported =>
      refine Or.inr ⟨?_, Response.unsupported_announces _ _⟩
      intro command commands
      cases commands with
      | holds other | returns other | lands other => cases named.symm.trans other

end Sentinel

namespace Tick

/-- The tick sends a reaction, and behind it the landing of an arrival if there is one to send. -/
def Reacts (tick : Tick) (reaction : List Signal) : Prop :=
  (tick.RetriesLanding ∧ tick.signals = reaction ++ [.command .land])
    ∨ (¬ tick.RetriesLanding ∧ tick.signals = reaction)

theorem reacts_of_response {tick : Tick} {response : Sentinel.Response}
    (called : tick.response? = some response) : tick.Reacts response.signals := by
  have sent : tick.signals = response.signals ++ tick.arrival.map Signal.command := by
    rw [signals_eq, react_of_response called, arrive_signals]
  rw [Reacts, ← arrival_eq_land_iff, sent]
  rcases tick.arrival_cases with none | landing
  · exact Or.inr ⟨by simp [none], by rw [none, List.map_nil, List.append_nil]⟩
  · exact Or.inl ⟨landing, by rw [landing, List.map_singleton]⟩

/-- Only a guarded landing is followed by the landing of an arrival. -/
theorem Reacts.signals_eq_of_guardsFlight {tick : Tick} {reaction : List Signal}
    (reacts : tick.Reacts reaction) (guards : tick.situation.GuardsFlight) :
    tick.signals = reaction := by
  rcases reacts with ⟨retries, _⟩ | ⟨_, sent⟩
  · have mode := retries.1.2.1
    rw [guards.2.1] at mode
    cases mode
  · exact sent

/--
Every tick that fires carries out one command.  A guarded landing is answered with a command and a
message behind it: a hold and a warning where nothing is known of the site, and otherwise the
command of the policy and an info, or what stands in for it and a warning.  A guarded flight is
answered with the command of its policy and nothing else, or with a hold and a warning.
-/
theorem firing_is_carried_out_and_announced (tick : Tick) (fired : tick.fires = true) :
    let situation := tick.situation
    let landing := situation.configuration.landing
    let avoidance := situation.configuration.avoidance
    let latest := tick.before.waypoints.lastCommanded
    (situation.GuardsLanding ∧ situation.telemetry.phase = .landing
        ∧ ∃ command severity text, text ≠ ""
          ∧ tick.Reacts [.command command, .message severity text]
          ∧ ((situation.landing = .unknown ∧ command = .hold ∧ severity = .warning)
            ∨ (situation.landing = .cannotLand ∧ severity = .info
              ∧ landing.Commands situation.telemetry latest command)
            ∨ (situation.landing = .cannotLand ∧ severity = .warning
              ∧ command = landing.fallback
              ∧ ∀ own, ¬ landing.Commands situation.telemetry latest own)))
      ∨ (situation.GuardsFlight ∧ situation.telemetry.phase = .inAir
        ∧ ((∃ command, tick.signals = [.command command] ∧ avoidance.Commands command)
          ∨ ∃ text, text ≠ "" ∧ tick.signals = [.command .hold, .message .warning text]
            ∧ ∀ own, ¬ avoidance.Commands own)) := by
  intro situation landing avoidance latest
  obtain ⟨response, called⟩ := Option.isSome_iff_exists.mp (tick.fires_iff_response.mp fired)
  have reacts := reacts_of_response called
  rcases Sentinel.danger_cases (danger_of_response called) with
    ⟨guards, phase, unknown, rfl⟩ | ⟨guards, phase, blocked, rfl⟩ | ⟨guards, phase, _, rfl⟩
  · exact Or.inl ⟨guards, phase, _, _, _, by decide, reacts, Or.inl ⟨unknown, rfl, rfl⟩⟩
  · refine Or.inl ⟨guards, phase, ?_⟩
    rcases Sentinel.landingResponse_announces landing situation.telemetry
        tick.before.waypoints with
      ⟨command, own, announces⟩ | ⟨none, announces⟩
    · rcases announces.signals with ⟨text, said, signals⟩
      rw [signals] at reacts
      exact ⟨command, .info, text, said, reacts, Or.inr (Or.inl ⟨blocked, rfl, own⟩)⟩
    · rcases announces.signals with ⟨text, said, signals⟩
      rw [signals] at reacts
      exact ⟨_, .warning, text, said, reacts, Or.inr (Or.inr ⟨blocked, rfl, rfl, none⟩)⟩
  · refine Or.inr ⟨guards, phase, ?_⟩
    have sent := reacts.signals_eq_of_guardsFlight guards
    rcases Sentinel.avoidanceResponse_cases avoidance with
      ⟨command, own, silent⟩ | ⟨none, announces⟩
    · refine Or.inl ⟨command, ?_, own⟩
      rw [sent, silent]
      rfl
    · rcases announces.signals with ⟨text, said, signals⟩
      exact Or.inr ⟨text, said, sent.trans signals, none⟩

end Tick

namespace Watch

/-- A landing that is moved to a waypoint over a link that refuses, and is blocked there again. -/
def twiceBlockedLanding : List (Link × Event) :=
  let waypoint : GlobalPosition := ⟨47, 8, 520⟩
  let guarded : Configuration :=
    { Configuration.default with
        enabled := true
        mode := .safeLanding
        landing := ⟨true, .goToWaypoint, false, waypoint, .zero⟩ }
  [.feed (.configuration guarded), .feed (.telemetry (.phase .landing)),
   .feed (.landing .cannotLand), .tick 0, .feed (.telemetry (.position waypoint)), .tick 50000].map
    fun event => ({ Link.accepting with signal := fun _ => some .rejected }, event)

/-- The tick that finds the landing blocked for the second time. -/
def twiceBlockedTick : Tick :=
  ((initial .default).run twiceBlockedLanding).1.tickAt .accepting 5000000

/-- The waypoint is not commanded again; the return that stands in for it comes with a warning. -/
theorem signals_of_twiceBlockedTick :
    twiceBlockedTick.fires = true
      ∧ ∃ text, text ≠ ""
        ∧ twiceBlockedTick.signals = [.command .returnToLaunch, .message .warning text] := by
  have fired : twiceBlockedTick.fires = true := by decide +kernel
  have settled : ¬ twiceBlockedTick.RetriesLanding := by
    rintro ⟨_, _, retried, _⟩
    exact absurd retried (by decide +kernel)
  refine ⟨fired, ?_⟩
  rcases twiceBlockedTick.firing_is_carried_out_and_announced fired with
    ⟨_, _, command, severity, text, said, reacts, sort⟩ | ⟨guards, _⟩
  · rcases sort with ⟨unknown, _⟩ | ⟨_, _, own⟩ | ⟨_, rfl, rfl, _⟩
    · exact absurd unknown (by decide)
    · cases own with
      | goes _ distant => exact absurd (distant _ rfl) (by decide)
      | holds other | returns other | moves other _ _ => exact absurd other (by decide)
    · exact ⟨text, said, (reacts.resolve_left fun retries => settled retries.1).2⟩
  · exact absurd guards (by decide)

end Watch

end FlightGuard
