import FlightGuard.Protection.Watch
import Mathlib.Tactic.Common

/-!
# The ticks of a watch

Every tick of a run is kept with what it found: the link, the wall clock, the situation and what
the sentinel remembered.  What the tick did follows from these.

A tick is described from the outside.  It fires when it starts a cooldown, and it retries the
landing when the vehicle is at the active target, be it an earlier one or the destination of a
command of this very tick.  `Tick.commands_eq` says that nothing else is ever commanded.
-/

namespace FlightGuard

/-- The flight command in a signal, if there is one. -/
def Signal.command? : Signal → Option FlightCommand
  | .command value => some value
  | .message _ _ => none

/-- Where a flight command sends the vehicle, if it names a place. -/
def FlightCommand.destination? : FlightCommand → Option GlobalPosition
  | .goTo position _ => some position
  | _ => none

/-! ## Situations that call for a reaction -/

namespace Situation

/-- Landing protection is on. -/
def GuardsLanding (situation : Situation) : Prop :=
  situation.configuration.enabled = true
    ∧ situation.configuration.mode = .safeLanding
    ∧ situation.configuration.landing.enabled = true

/-- Obstacle protection is on. -/
def GuardsFlight (situation : Situation) : Prop :=
  situation.configuration.enabled = true
    ∧ situation.configuration.mode = .collisionAvoidance
    ∧ situation.configuration.avoidance.enabled = true

/--
A guarded landing on a site where the vehicle cannot land or where nothing is known, or a guarded
flight towards an obstacle at a finite distance that is not above the threshold.
-/
def IsEligible (situation : Situation) : Prop :=
  (situation.GuardsLanding
      ∧ situation.telemetry.phase = .landing
      ∧ (situation.landing = .unknown ∨ situation.landing = .cannotLand))
    ∨ (situation.GuardsFlight
      ∧ situation.telemetry.phase = .inAir
      ∧ situation.obstacle.isFinite = true
      ∧ ¬ situation.configuration.avoidance.threshold < situation.obstacle)

instance (situation : Situation) : Decidable situation.GuardsLanding :=
  inferInstanceAs (Decidable (_ ∧ _ ∧ _))

instance (situation : Situation) : Decidable situation.GuardsFlight :=
  inferInstanceAs (Decidable (_ ∧ _ ∧ _))

instance (situation : Situation) : Decidable situation.IsEligible :=
  inferInstanceAs (Decidable ((_ ∧ _ ∧ (_ ∨ _)) ∨ (_ ∧ _ ∧ _ ∧ ¬ _)))

end Situation

namespace Sentinel

theorem activeMode_eq_safeLanding_iff (situation : Situation) :
    activeMode situation.configuration = .safeLanding ↔ situation.GuardsLanding := by
  simp only [activeMode, Situation.GuardsLanding]
  cases situation.configuration.enabled <;>
    cases situation.configuration.mode <;>
    cases situation.configuration.landing.enabled <;>
    cases situation.configuration.avoidance.enabled <;>
    simp

theorem activeMode_eq_collisionAvoidance_iff (situation : Situation) :
    activeMode situation.configuration = .collisionAvoidance ↔ situation.GuardsFlight := by
  simp only [activeMode, Situation.GuardsFlight]
  cases situation.configuration.enabled <;>
    cases situation.configuration.mode <;>
    cases situation.configuration.landing.enabled <;>
    cases situation.configuration.avoidance.enabled <;>
    simp

/-- The eligible situations are those with a reaction, whatever was commanded before. -/
theorem danger_isSome_iff (situation : Situation) (waypoints : WaypointMemory) :
    (danger situation waypoints).isSome = true ↔ situation.IsEligible := by
  rw [Situation.IsEligible, ← activeMode_eq_safeLanding_iff,
    ← activeMode_eq_collisionAvoidance_iff, danger]
  cases activeMode situation.configuration with
  | safeLanding =>
      simp only [landingDanger]
      cases situation.telemetry.phase <;> cases situation.landing <;> simp
  | collisionAvoidance =>
      simp [avoidanceDanger, isClose]
  | disabled =>
      simp

/-- The three reactions and what calls for each of them. -/
theorem danger_cases {situation : Situation} {waypoints : WaypointMemory} {response : Response}
    (called : danger situation waypoints = some response) :
    (situation.GuardsLanding ∧ situation.telemetry.phase = .landing
        ∧ situation.landing = .unknown
        ∧ response = .announced .hold .warning "Unknown landing state. Holding...")
      ∨ (situation.GuardsLanding ∧ situation.telemetry.phase = .landing
        ∧ situation.landing = .cannotLand
        ∧ response =
            landingResponse situation.configuration.landing situation.telemetry waypoints)
      ∨ (situation.GuardsFlight ∧ situation.telemetry.phase = .inAir
        ∧ isClose situation.configuration.avoidance situation.obstacle = true
        ∧ response = avoidanceResponse situation.configuration.avoidance) := by
  rw [← activeMode_eq_safeLanding_iff, ← activeMode_eq_collisionAvoidance_iff]
  rw [danger] at called
  split at called
  next active =>
    rw [landingDanger] at called
    split at called
    next landing =>
      split at called
      next unknown => exact Or.inl ⟨active, landing, unknown, (Option.some.inj called).symm⟩
      next blocked =>
        exact Or.inr (Or.inl ⟨active, landing, blocked, (Option.some.inj called).symm⟩)
      next => contradiction
    next => contradiction
  next active =>
    rw [avoidanceDanger] at called
    split at called
    next close =>
      exact Or.inr (Or.inr ⟨active, close.1, close.2, (Option.some.inj called).symm⟩)
    next => contradiction
  next => contradiction

/-- A reaction remembers a target exactly when its command names a destination. -/
theorem landingResponse_target (policy : LandingPolicy) (telemetry : Telemetry)
    (waypoints : WaypointMemory) :
    (landingResponse policy telemetry waypoints).target =
      (landingResponse policy telemetry waypoints).command.destination? := by
  rw [landingResponse]
  cases policy.reaction with
  | moveByBodyOffset =>
      cases offsetTarget? policy telemetry <;> rfl
  | goToWaypoint =>
      cases waypoints.wasCommanded policy.waypoint <;> rfl
  | _ => rfl

/-- No reaction to an obstacle names a destination. -/
theorem avoidanceResponse_target (policy : AvoidancePolicy) :
    (avoidanceResponse policy).target = (avoidanceResponse policy).command.destination? := by
  rw [avoidanceResponse]
  cases policy.reaction <;> rfl

theorem danger_target {situation : Situation} {waypoints : WaypointMemory} {response : Response}
    (called : danger situation waypoints = some response) :
    response.target = response.command.destination? := by
  rcases danger_cases called with
    ⟨_, _, _, rfl⟩ | ⟨_, _, _, rfl⟩ | ⟨_, _, _, rfl⟩
  · rfl
  · exact landingResponse_target _ _ _
  · exact avoidanceResponse_target _

/-- A response sends its one command and nothing else that moves the vehicle. -/
theorem Response.signals_commands (response : Response) :
    response.signals.filterMap Signal.command? = [response.command] := by
  rw [Response.signals]
  cases response.message <;> rfl

end Sentinel

/-! ## One tick -/

/-- A tick of a run with what it found. -/
structure Tick where
  link : Link
  now : Int
  situation : Situation
  before : Sentinel

namespace Tick

/-- What the sentinel remembers after the tick. -/
def after (tick : Tick) : Sentinel :=
  (tick.before.tick tick.situation tick.now).1

/-- What the tick sends. -/
def signals (tick : Tick) : List Signal :=
  (tick.before.tick tick.situation tick.now).2

/-- The flight commands among the signals. -/
def commands (tick : Tick) : List FlightCommand :=
  tick.signals.filterMap Signal.command?

/-- The tick starts a cooldown. -/
def fires (tick : Tick) : Bool :=
  !(tick.before.cooldown.expire tick.now).triggered && tick.after.cooldown.triggered

/-- The destination of a command of this tick, or else the target that the tick found. -/
def target? (tick : Tick) : Option GlobalPosition :=
  (tick.commands.findSome? FlightCommand.destination?).or tick.before.waypoints.target

/-- The vehicle is at the active target of a guarded landing, and has to try to land there. -/
def RetriesLanding (tick : Tick) : Prop :=
  tick.situation.GuardsLanding
    ∧ (∃ target ∈ tick.target?, target.isNear tick.situation.telemetry.position = true)
    ∧ tick.situation.configuration.landing.retryLanding = true
    ∧ tick.situation.telemetry.phase ≠ .onGround

/-! ### What a tick does -/

/-- The sentinel after the cooldown has had its chance to run out. -/
def rested (tick : Tick) : Sentinel :=
  { tick.before with cooldown := tick.before.cooldown.expire tick.now }

@[simp]
theorem rested_waypoints (tick : Tick) :
    tick.rested.waypoints = tick.before.waypoints :=
  rfl

/-- The reaction that the tick carries out, if it carries one out. -/
def response? (tick : Tick) : Option Sentinel.Response :=
  if tick.rested.cooldown.triggered then none
  else Sentinel.danger tick.situation tick.before.waypoints

/-- The sentinel between the reaction and the arrival. -/
def reacted (tick : Tick) : Sentinel :=
  (tick.rested.react tick.situation tick.now).1

theorem react_of_response {tick : Tick} {response : Sentinel.Response}
    (called : tick.response? = some response) :
    tick.rested.react tick.situation tick.now =
      (⟨tick.rested.cooldown.mark tick.now,
        response.target.elim tick.before.waypoints tick.before.waypoints.command⟩,
       response.signals) := by
  obtain ⟨free, dangerous⟩ :
      ¬ tick.rested.cooldown.triggered = true
        ∧ Sentinel.danger tick.situation tick.before.waypoints = some response := by
    simpa [response?] using called
  rw [Sentinel.react, if_neg free, rested_waypoints, dangerous]
  cases target : response.target with
  | some position => simp only [target, Option.elim_some]
  | none => simp only [target, Option.elim_none]

theorem react_of_no_response {tick : Tick} (quiet : tick.response? = none) :
    tick.rested.react tick.situation tick.now = (tick.rested, []) := by
  rw [Sentinel.react]
  by_cases blocked : tick.rested.cooldown.triggered = true
  · rw [if_pos blocked]
  · have calm : Sentinel.danger tick.situation tick.before.waypoints = none := by
      simpa only [response?, if_neg blocked] using quiet
    rw [if_neg blocked, rested_waypoints, calm]

/-- The reaction comes before the arrival. -/
theorem signals_eq (tick : Tick) :
    tick.signals =
      (tick.rested.react tick.situation tick.now).2
        ++ (tick.reacted.arrive tick.situation).2 :=
  rfl

theorem danger_of_response {tick : Tick} {response : Sentinel.Response}
    (called : tick.response? = some response) :
    Sentinel.danger tick.situation tick.before.waypoints = some response := by
  rw [response?] at called
  split at called
  · contradiction
  · exact called

theorem response_target {tick : Tick} {response : Sentinel.Response}
    (called : tick.response? = some response) :
    response.target = response.command.destination? :=
  Sentinel.danger_target (danger_of_response called)

/-- An arrival leaves the cooldown as the reaction has left it. -/
theorem after_cooldown (tick : Tick) :
    tick.after.cooldown = tick.reacted.cooldown := by
  change (tick.reacted.arrive tick.situation).1.cooldown = _
  rw [Sentinel.arrive]
  split <;> rfl

/-- A tick fires when it carries out a reaction. -/
theorem fires_iff_response (tick : Tick) :
    tick.fires = true ↔ tick.response?.isSome = true := by
  have expired : tick.before.cooldown.expire tick.now = tick.rested.cooldown := rfl
  rw [fires, after_cooldown, reacted, expired]
  cases answer : tick.response? with
  | some response =>
      have free : tick.rested.cooldown.triggered = false := by
        by_contra blocked
        simp [response?, blocked] at answer
      simp [react_of_response answer, free, Cooldown.mark]
  | none =>
      simp [react_of_no_response answer]

/-- A tick fires when its situation is eligible and no cooldown is left. -/
theorem fires_iff_eligible (tick : Tick) :
    tick.fires = true ↔
      tick.rested.cooldown.triggered = false ∧ tick.situation.IsEligible := by
  rw [fires_iff_response, response?, ← Sentinel.danger_isSome_iff _ tick.before.waypoints]
  cases tick.rested.cooldown.triggered <;> simp

theorem after_cooldown_of_fires {tick : Tick} (fired : tick.fires = true) :
    tick.after.cooldown = ⟨true, some tick.now⟩ := by
  rcases Option.isSome_iff_exists.mp (tick.fires_iff_response.mp fired) with ⟨response, called⟩
  rw [after_cooldown, reacted, react_of_response called]
  rfl

theorem after_cooldown_of_not_fires {tick : Tick} (quiet : ¬ tick.fires = true) :
    tick.after.cooldown = tick.before.cooldown.expire tick.now := by
  rw [fires_iff_response, Option.not_isSome_iff_eq_none] at quiet
  rw [after_cooldown, reacted, react_of_no_response quiet]
  rfl

/-- The command of the reaction, if there is a reaction. -/
def reaction (tick : Tick) : List FlightCommand :=
  (tick.response?.map Sentinel.Response.command).toList

theorem react_commands (tick : Tick) :
    (tick.rested.react tick.situation tick.now).2.filterMap Signal.command? = tick.reaction := by
  rw [reaction]
  cases answer : tick.response? with
  | some response =>
      rw [react_of_response answer]
      exact response.signals_commands
  | none =>
      rw [react_of_no_response answer]
      rfl

/-- The target at the arrival check is that of the reaction, or else the earlier one. -/
theorem reacted_target (tick : Tick) :
    tick.reacted.waypoints.target =
      (tick.reaction.findSome? FlightCommand.destination?).or tick.before.waypoints.target := by
  rw [reacted, reaction]
  cases answer : tick.response? with
  | some response =>
      have single :
          ((some response).map Sentinel.Response.command).toList.findSome?
              FlightCommand.destination? =
            response.command.destination? := by
        simp
      rw [react_of_response answer, response_target answer, single]
      cases response.command.destination? <;> rfl
  | none =>
      rw [react_of_no_response answer]
      rfl

/-- The command of the arrival, if the vehicle has to try to land. -/
def arrival (tick : Tick) : List FlightCommand :=
  (tick.reacted.arrive tick.situation).2.filterMap Signal.command?

theorem reaction_length (tick : Tick) :
    tick.reaction.length = if tick.fires then 1 else 0 := by
  have fires := tick.fires_iff_response
  rw [reaction]
  cases answer : tick.response? with
  | some response => simp [fires.mpr (by rw [answer]; rfl)]
  | none =>
      have quiet : ¬ tick.fires = true := by
        rw [fires, answer]
        simp
      simp [quiet]

theorem arrival_cases (tick : Tick) :
    tick.arrival = [] ∨ tick.arrival = [.land] := by
  rw [arrival, Sentinel.arrive]
  split
  · split
    · exact Or.inr rfl
    · exact Or.inl rfl
  · exact Or.inl rfl

/-- An arrival sends no message. -/
theorem arrive_signals (tick : Tick) :
    (tick.reacted.arrive tick.situation).2 = tick.arrival.map Signal.command := by
  rw [arrival, Sentinel.arrive]
  split
  · split <;> rfl
  · rfl

theorem commands_eq (tick : Tick) :
    tick.commands = tick.reaction ++ tick.arrival := by
  rw [commands, signals_eq, List.filterMap_append, react_commands]
  rfl

theorem target_eq (tick : Tick) :
    tick.target? = tick.reacted.waypoints.target := by
  rw [target?, commands_eq, reacted_target, List.findSome?_append]
  rcases tick.arrival_cases with none | landing
  · simp [none]
  · simp [landing, FlightCommand.destination?]

/-- The arrival lands the vehicle exactly if it has to try to land. -/
theorem arrival_eq_land_iff (tick : Tick) :
    tick.arrival = [.land] ↔ tick.RetriesLanding := by
  have reached :
      tick.reacted.waypoints.hasArrived tick.situation.telemetry.position = true ↔
        ∃ target ∈ tick.target?, target.isNear tick.situation.telemetry.position = true := by
    rw [target_eq, WaypointMemory.hasArrived]
    simp [Option.any_eq_true]
  rw [arrival, Sentinel.arrive, RetriesLanding]
  rw [← reached, ← Sentinel.activeMode_eq_safeLanding_iff]
  split
  next arrived =>
    split
    next retried =>
      simp [arrived, retried, Signal.command?]
    next settled =>
      simp only [List.filterMap_nil, List.nil_eq, reduceCtorEq, false_iff]
      intro retries
      exact settled retries.2.2
  next away =>
    simp only [List.filterMap_nil, List.nil_eq, reduceCtorEq, false_iff]
    intro retries
    exact away ⟨retries.1, retries.2.1⟩

end Tick

/-! ## The ticks of a run -/

namespace Watch

/-- The ticks of a run in their order. -/
def ticks (watch : Watch) : List (Link × Event) → List Tick
  | [] => []
  | (_, .feed news) :: events => (watch.update news).ticks events
  | (link, .tick now) :: events =>
      ⟨link, now, watch.feeds.situation, watch.sentinel⟩ :: (watch.tick link now).1.ticks events

/-- A run sends what its ticks send. -/
theorem run_sent (watch : Watch) (events : List (Link × Event)) :
    (watch.run events).2 =
      (watch.ticks events).flatMap fun tick => tick.link.transmit tick.signals := by
  induction events generalizing watch with
  | nil => rfl
  | cons first events induction =>
      rcases first with ⟨link, news | now⟩
      · exact induction (watch.update news)
      · change (watch.tick link now).2 ++ ((watch.tick link now).1.run events).2 = _
        rw [induction, ticks, List.flatMap_cons]
        rfl

end Watch

end FlightGuard
