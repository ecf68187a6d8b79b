import FlightGuard.Proofs.Watch.Past

/-!
# Flight phases

A reaction needs the phase of its policy: a guarded landing is reacted to while the vehicle lands,
and a guarded flight while it is in the air.  In every other phase a tick can only notice the
arrival at the active target, and an arrival on the ground is followed by nothing.

This does not depend on what earlier ticks have left behind.  Open targets, running cooldowns and
modes that were switched in between make no difference to it.
-/

namespace FlightGuard

namespace Situation

/-- Only a vehicle that lands or is in the air is reacted to. -/
theorem IsEligible.phase_cases {situation : Situation} (eligible : situation.IsEligible) :
    (situation.GuardsLanding ∧ situation.telemetry.phase = .landing)
      ∨ (situation.GuardsFlight ∧ situation.telemetry.phase = .inAir) := by
  rcases eligible with ⟨guards, landing, _⟩ | ⟨guards, flying, _⟩
  · exact Or.inl ⟨guards, landing⟩
  · exact Or.inr ⟨guards, flying⟩

end Situation

namespace Tick

/-- All that the tick sends is the landing behind an arrival, and only if there is one to send. -/
def OnlyRetriesLanding (tick : Tick) : Prop :=
  (tick.RetriesLanding ∧ tick.signals = [.command .land])
    ∨ (¬ tick.RetriesLanding ∧ tick.signals = [])

/-- The cooldown has had its chance to run out, and nothing else has happened to it. -/
def OnlyExpires (tick : Tick) : Prop :=
  tick.after.cooldown = tick.before.cooldown.expire tick.now

theorem onlyRetriesLanding_of_no_response {tick : Tick} (quiet : tick.response? = none) :
    tick.OnlyRetriesLanding := by
  have silent : tick.signals = tick.arrival.map Signal.command := by
    rw [signals_eq, react_of_no_response quiet, arrive_signals, List.nil_append]
  rw [OnlyRetriesLanding, ← arrival_eq_land_iff, silent]
  rcases tick.arrival_cases with none | landing
  · exact Or.inr ⟨by simp [none], by rw [none, List.map_nil]⟩
  · exact Or.inl ⟨landing, by rw [landing, List.map_singleton]⟩

/-- Where nothing calls for a reaction, an arrival is all that a tick can notice. -/
theorem calm_of_not_eligible {tick : Tick} (calm : ¬ tick.situation.IsEligible) :
    tick.OnlyRetriesLanding ∧ tick.OnlyExpires := by
  have quiet : ¬ tick.fires = true := fun fired => calm (tick.fires_iff_eligible.mp fired).2
  refine ⟨onlyRetriesLanding_of_no_response ?_, after_cooldown_of_not_fires quiet⟩
  rw [← Option.not_isSome_iff_eq_none, ← fires_iff_response]
  exact quiet

theorem OnlyRetriesLanding.silent {tick : Tick} (only : tick.OnlyRetriesLanding)
    (settled : ¬ tick.RetriesLanding) : tick.signals = [] := by
  rcases only with ⟨retries, _⟩ | ⟨_, silent⟩
  · exact absurd retries settled
  · exact silent

/--
On the ground nothing is sent, and neither is anything in collision avoidance mode unless the
vehicle is in the air.  While the vehicle takes off, while its phase is unknown, and in safe landing
mode while it is in the air, nothing is sent but one landing behind an arrival.  In all these cases
the cooldown can only run out.
-/
theorem phases_gate_signals (tick : Tick) :
    let phase := tick.situation.telemetry.phase
    let mode := tick.situation.configuration.mode
    (phase = .onGround → tick.signals = [] ∧ tick.OnlyExpires)
      ∧ (phase = .takingOff ∨ phase = .unknown → tick.OnlyRetriesLanding ∧ tick.OnlyExpires)
      ∧ (mode = .safeLanding → phase = .inAir → tick.OnlyRetriesLanding ∧ tick.OnlyExpires)
      ∧ (mode = .collisionAvoidance → phase ≠ .inAir →
          tick.signals = [] ∧ tick.OnlyExpires) := by
  intro phase mode
  refine ⟨?_, ?_, ?_, ?_⟩
  · intro grounded
    have calm : ¬ tick.situation.IsEligible := by
      intro eligible
      rcases eligible.phase_cases with ⟨_, landing⟩ | ⟨_, flying⟩
      · exact FlightPhase.noConfusion (grounded.symm.trans landing)
      · exact FlightPhase.noConfusion (grounded.symm.trans flying)
    obtain ⟨only, expires⟩ := calm_of_not_eligible calm
    exact ⟨only.silent fun retries => retries.2.2.2 grounded, expires⟩
  · intro idle
    apply calm_of_not_eligible
    intro eligible
    rcases idle with idle | idle <;> rcases eligible.phase_cases with ⟨_, other⟩ | ⟨_, other⟩ <;>
      exact FlightPhase.noConfusion (idle.symm.trans other)
  · intro guards flying
    apply calm_of_not_eligible
    intro eligible
    rcases eligible.phase_cases with ⟨_, landing⟩ | ⟨⟨_, avoids, _⟩, _⟩
    · exact FlightPhase.noConfusion (flying.symm.trans landing)
    · exact Mode.noConfusion (guards.symm.trans avoids)
  · intro avoids other
    have unguarded : ¬ tick.situation.GuardsLanding := by
      rintro ⟨_, guards, _⟩
      exact Mode.noConfusion (avoids.symm.trans guards)
    have calm : ¬ tick.situation.IsEligible := by
      intro eligible
      rcases eligible.phase_cases with ⟨guards, _⟩ | ⟨_, flying⟩
      · exact unguarded guards
      · exact other flying
    obtain ⟨only, expires⟩ := calm_of_not_eligible calm
    exact ⟨only.silent fun retries => unguarded retries.1, expires⟩

end Tick

namespace Watch

/-- A vehicle that was moved to a waypoint before it landed, and is there now. -/
def reachedWaypoint (phase : FlightPhase) : Watch :=
  let waypoint : GlobalPosition := ⟨47, 8, 520⟩
  let guarded : Configuration :=
    { Configuration.default with
        enabled := true
        mode := .safeLanding
        landing := ⟨true, .goToWaypoint, true, waypoint, .zero⟩ }
  let moved := (initial guarded).run <|
    [.feed (.telemetry (.phase .landing)), .feed (.landing .cannotLand), .tick 0,
     .feed (.telemetry (.position waypoint)), .feed (.telemetry (.phase phase))].map
      fun event => (.accepting, event)
  moved.1

/--
The landing behind the arrival is sent on take-off, but not on the ground and not in collision
avoidance mode, which leaves the target open.
-/
theorem signals_at_reachedWaypoint :
    let avoiding : Configuration :=
      { Configuration.default with
          enabled := true
          mode := .collisionAvoidance
          avoidance := ⟨true, 1, .land⟩ }
    let tick (phase : FlightPhase) : Tick := (reachedWaypoint phase).tickAt .accepting 5000000
    let switched : Tick :=
      ((reachedWaypoint .landing).update (.configuration avoiding)).tickAt .accepting 5000000
    ((tick .onGround).signals = [] ∧ (tick .onGround).OnlyExpires)
      ∧ ((tick .takingOff).OnlyRetriesLanding ∧ (tick .takingOff).OnlyExpires)
      ∧ (tick .takingOff).signals = [.command .land]
      ∧ ((tick .inAir).OnlyRetriesLanding ∧ (tick .inAir).OnlyExpires)
      ∧ (switched.signals = [] ∧ switched.OnlyExpires)
      ∧ switched.before.cooldown = ⟨true, some 0⟩
      ∧ switched.after.cooldown = ⟨false, some 0⟩
      ∧ switched.after.waypoints.target.isSome = true := by
  intro avoiding tick switched
  exact ⟨(tick .onGround).phases_gate_signals.1 rfl,
    (tick .takingOff).phases_gate_signals.2.1 (Or.inl rfl), by decide,
    (tick .inAir).phases_gate_signals.2.2.1 rfl rfl,
    switched.phases_gate_signals.2.2.2 rfl FlightPhase.noConfusion,
    by decide, by decide, by decide⟩

end Watch

end FlightGuard
