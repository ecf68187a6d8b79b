import FlightGuard.Proofs.Watch.Past

/-!
# The memory of repositions

The waypoint commanded last is the destination of the latest reposition that was sent, however long
ago and whatever has become of it.  A tick says where it sends the vehicle (`Tick.goal?`), and the
memory after the tick follows from that and from what was remembered before.

So a configured waypoint is not commanded again once the vehicle was last sent there, and a run
that knows no other destination sends at most one reposition.
-/

namespace FlightGuard

theorem WaypointMemory.wasCommanded_iff (memory : WaypointMemory) (position : GlobalPosition) :
    memory.wasCommanded position = true ↔
      ∃ latest ∈ memory.lastCommanded, latest.isNear position = true := by
  simp [wasCommanded, Option.any_eq_true]

namespace Sentinel

theorem landingResponse_target_cases {policy : LandingPolicy} {telemetry : Telemetry}
    {waypoints : WaypointMemory} {position : GlobalPosition}
    (moves : (landingResponse policy telemetry waypoints).target = some position) :
    (policy.reaction = .moveByBodyOffset ∧ offsetTarget? policy telemetry = some position)
      ∨ (policy.reaction = .goToWaypoint ∧ policy.waypoint = position
        ∧ waypoints.wasCommanded position = false) := by
  rw [landingResponse] at moves
  split at moves
  next => cases moves
  next => cases moves
  next offset =>
    split at moves
    next known =>
      cases moves
      exact Or.inl ⟨offset, known⟩
    next => cases moves
  next waypoint =>
    split at moves
    next => cases moves
    next unknown =>
      cases moves
      exact Or.inr ⟨waypoint, rfl, Bool.eq_false_iff.mpr unknown⟩
  next => cases moves

/-- A response that sends the vehicle somewhere answers a landing site, by one of two policies. -/
theorem target_cases {situation : Situation} {waypoints : WaypointMemory} {response : Response}
    {position : GlobalPosition} (called : danger situation waypoints = some response)
    (moves : response.target = some position) :
    let policy := situation.configuration.landing
    (policy.reaction = .moveByBodyOffset
        ∧ offsetTarget? policy situation.telemetry = some position)
      ∨ (policy.reaction = .goToWaypoint ∧ policy.waypoint = position
        ∧ waypoints.wasCommanded position = false) := by
  rcases danger_cases called with
    ⟨_, _, _, rfl⟩ | ⟨_, _, _, rfl⟩ | ⟨_, _, _, rfl⟩
  · cases moves
  · exact landingResponse_target_cases moves
  · rw [avoidanceResponse] at moves
    split at moves <;> cases moves

theorem landingResponse_command_of_goToWaypoint {policy : LandingPolicy}
    (telemetry : Telemetry) (waypoints : WaypointMemory) (named : policy.reaction = .goToWaypoint) :
    (landingResponse policy telemetry waypoints).command =
      if waypoints.wasCommanded policy.waypoint then .returnToLaunch
      else .goTo policy.waypoint anyHeading := by
  rw [landingResponse, named]
  cases waypoints.wasCommanded policy.waypoint <;> rfl

end Sentinel

namespace Tick

/-- Where the tick sends the vehicle, if it sends it somewhere. -/
def goal? (tick : Tick) : Option GlobalPosition :=
  tick.response?.bind Sentinel.Response.target

theorem reaction_destinations (tick : Tick) :
    tick.reaction.filterMap FlightCommand.destination? = tick.goal?.toList := by
  rw [reaction, goal?]
  cases answer : tick.response? with
  | none => rfl
  | some response =>
      simp only [Option.map_some, Option.toList_some, Option.bind_some, response_target answer]
      cases destination : response.command.destination? <;> simp [destination]

theorem commands_destinations (tick : Tick) :
    tick.commands.filterMap FlightCommand.destination? = tick.goal?.toList := by
  rw [commands_eq, List.filterMap_append, reaction_destinations]
  rcases tick.arrival_cases with none | landing
  · simp [none]
  · simp [landing, FlightCommand.destination?]

theorem reacted_waypoints (tick : Tick) :
    tick.reacted.waypoints =
      tick.goal?.elim tick.before.waypoints tick.before.waypoints.command := by
  rw [reacted, goal?]
  cases answer : tick.response? with
  | none =>
      rw [react_of_no_response answer]
      rfl
  | some response =>
      rw [react_of_response answer]
      rfl

/-- A tick remembers where it sends the vehicle, or else what was remembered before. -/
theorem after_lastCommanded (tick : Tick) :
    tick.after.waypoints.lastCommanded =
      tick.goal?.or tick.before.waypoints.lastCommanded := by
  have kept : tick.after.waypoints.lastCommanded = tick.reacted.waypoints.lastCommanded := by
    change (tick.reacted.arrive tick.situation).1.waypoints.lastCommanded = _
    rw [Sentinel.arrive]
    split <;> rfl
  rw [kept, reacted_waypoints]
  cases tick.goal? <;> rfl

/-- The waypoint that is configured when the tick is made. -/
def waypoint (tick : Tick) : GlobalPosition :=
  tick.situation.configuration.landing.waypoint

/-- The tick carries out the policy that sends the vehicle to a configured waypoint. -/
def FiresAtWaypoint (tick : Tick) : Prop :=
  tick.fires = true
    ∧ tick.situation.GuardsLanding
    ∧ tick.situation.landing = .cannotLand
    ∧ tick.situation.configuration.landing.reaction = .goToWaypoint

instance (tick : Tick) : Decidable tick.FiresAtWaypoint :=
  inferInstanceAs (Decidable (_ ∧ _ ∧ _ ∧ _))

/-- Where a vehicle cannot land, a tick that fires reacts by the policy for landings. -/
theorem response_of_cannotLand {tick : Tick} (fired : tick.fires = true)
    (guards : tick.situation.GuardsLanding) (blocked : tick.situation.landing = .cannotLand) :
    tick.response? = some (Sentinel.landingResponse tick.situation.configuration.landing
      tick.situation.telemetry tick.before.waypoints) := by
  obtain ⟨response, called⟩ := Option.isSome_iff_exists.mp (tick.fires_iff_response.mp fired)
  rw [called]
  rcases Sentinel.danger_cases (danger_of_response called) with
    ⟨_, _, unknown, _⟩ | ⟨_, _, _, rfl⟩ | ⟨⟨_, avoids, _⟩, _⟩
  · rw [blocked] at unknown
    contradiction
  · rfl
  · rw [guards.2.1] at avoids
    contradiction

theorem reaction_of_firesAtWaypoint {tick : Tick} (fires : tick.FiresAtWaypoint) :
    tick.reaction =
      [if tick.before.waypoints.wasCommanded tick.waypoint then .returnToLaunch
        else .goTo tick.waypoint Sentinel.anyHeading] := by
  rw [reaction, response_of_cannotLand fires.1 fires.2.1 fires.2.2.1, Option.map_some,
    Sentinel.landingResponse_command_of_goToWaypoint _ _ fires.2.2.2]
  rfl

/-- The waypoint is commanded unless the vehicle was last sent there. -/
theorem goTo_mem_iff_of_firesAtWaypoint {tick : Tick} (fires : tick.FiresAtWaypoint) :
    .goTo tick.waypoint Sentinel.anyHeading ∈ tick.commands ↔
      ¬ tick.before.waypoints.wasCommanded tick.waypoint = true := by
  have other : .goTo tick.waypoint Sentinel.anyHeading ∉ tick.arrival := by
    rcases tick.arrival_cases with none | landing
    · simp [none]
    · simp [landing]
  rw [commands_eq, List.mem_append, or_iff_left other, reaction_of_firesAtWaypoint fires,
    List.mem_singleton]
  split
  next visited => simp [visited]
  next unknown => simp [unknown]

/-- A vehicle that was last sent to the waypoint returns. -/
theorem returns_of_firesAtWaypoint {tick : Tick} (fires : tick.FiresAtWaypoint)
    (visited : tick.before.waypoints.wasCommanded tick.waypoint = true) :
    .returnToLaunch ∈ tick.commands ∧ tick.goal? = none := by
  have reaction := reaction_of_firesAtWaypoint fires
  rw [if_pos visited] at reaction
  constructor
  · rw [commands_eq, reaction]
    exact List.mem_append_left _ (List.mem_singleton_self _)
  · rw [← Option.toList_eq_nil_iff, ← reaction_destinations, reaction]
    rfl

/-- The configuration of the tick names no destination but a waypoint. -/
def KeepsTo (tick : Tick) (waypoint : GlobalPosition) : Prop :=
  tick.situation.configuration.landing.reaction ≠ .moveByBodyOffset
    ∧ (tick.situation.configuration.landing.reaction = .goToWaypoint → tick.waypoint = waypoint)

instance (tick : Tick) (waypoint : GlobalPosition) : Decidable (tick.KeepsTo waypoint) :=
  inferInstanceAs (Decidable (_ ≠ _ ∧ (_ → _)))

theorem goal_of_keepsTo {tick : Tick} {waypoint position : GlobalPosition}
    (keeps : tick.KeepsTo waypoint) (sends : tick.goal? = some position) :
    position = waypoint ∧ tick.before.waypoints.wasCommanded waypoint = false := by
  obtain ⟨response, called, moves⟩ := Option.bind_eq_some_iff.mp sends
  rcases Sentinel.target_cases (danger_of_response called) moves with
    ⟨offset, _⟩ | ⟨named, rfl, unknown⟩
  · exact absurd offset keeps.1
  · obtain rfl := keeps.2 named
    exact ⟨rfl, unknown⟩

end Tick

/-! ## Runs -/

/-- Where a sequence of transmissions sends the vehicle, in its order. -/
def destinations (sent : List Transmission) : List GlobalPosition :=
  sent.filterMap fun transmission =>
    transmission.signal.command?.bind FlightCommand.destination?

theorem destinations_append (first second : List Transmission) :
    destinations (first ++ second) = destinations first ++ destinations second :=
  List.filterMap_append

theorem destinations_transmit (link : Link) (signals : List Signal) :
    destinations (link.transmit signals) =
      (signals.filterMap Signal.command?).filterMap FlightCommand.destination? := by
  rw [destinations, Link.transmit, List.filterMap_map, List.filterMap_filterMap]
  rfl

namespace Watch

/-- A tick sends the vehicle to its goal, and the rest of the run goes on from there. -/
theorem destinations_run_tick (watch : Watch) (link : Link) (now : Int)
    (events : List (Link × Event)) :
    destinations (watch.run ((link, .tick now) :: events)).2 =
      (watch.tickAt link now).goal?.toList
        ++ destinations ((watch.tick link now).1.run events).2 := by
  rw [run_tick, destinations_append, ← Tick.commands_destinations]
  congr 1
  exact destinations_transmit link _

theorem latest_run_tick (watch : Watch) (link : Link) (now : Int)
    (events : List (Link × Event)) :
    (destinations (watch.run ((link, .tick now) :: events)).2).getLast? =
      (destinations ((watch.tick link now).1.run events).2).getLast?.or
        (watch.tickAt link now).goal? := by
  rw [destinations_run_tick, List.getLast?_append]
  cases (watch.tickAt link now).goal? <;> rfl

/-- A run remembers its latest reposition, or else what was remembered before. -/
theorem lastCommanded_run (watch : Watch) (events : List (Link × Event)) :
    (watch.run events).1.sentinel.waypoints.lastCommanded =
      (destinations (watch.run events).2).getLast?.or
        watch.sentinel.waypoints.lastCommanded := by
  induction events generalizing watch with
  | nil => rfl
  | cons first events induction =>
      rcases first with ⟨link, news | now⟩
      · exact induction (watch.update news)
      · rw [latest_run_tick, Option.or_assoc, run_tick, induction, sentinel_tick,
          Tick.after_lastCommanded]
        rfl

/-- While the vehicle was last sent to the one waypoint that there is, it is sent nowhere. -/
theorem destinations_eq_nil {waypoint : GlobalPosition} (near : waypoint.isNear waypoint = true)
    {watch : Watch} {events : List (Link × Event)}
    (keeps : ∀ tick ∈ watch.ticks events, tick.KeepsTo waypoint)
    (commanded : watch.sentinel.waypoints.lastCommanded = some waypoint) :
    destinations (watch.run events).2 = [] := by
  induction events generalizing watch with
  | nil => rfl
  | cons first events induction =>
      rcases first with ⟨link, news | now⟩
      · exact induction keeps commanded
      · obtain ⟨first, later⟩ := List.forall_mem_cons.mp keeps
        -- The waypoint that is remembered is near itself, so that it counts as commanded.
        have still : (watch.tickAt link now).goal? = none := by
          by_contra sends
          obtain ⟨position, sends⟩ := Option.ne_none_iff_exists'.mp sends
          have unknown := (Tick.goal_of_keepsTo first sends).2
          change watch.sentinel.waypoints.wasCommanded waypoint = false at unknown
          rw [WaypointMemory.wasCommanded, commanded, Option.any_some, near] at unknown
          contradiction
        rw [destinations_run_tick, still, Option.toList_none, List.nil_append]
        apply induction later
        rw [sentinel_tick, Tick.after_lastCommanded, still]
        exact commanded

/-- A run that knows a single waypoint sends the vehicle there once at most. -/
theorem destinations_length_le {waypoint : GlobalPosition}
    (near : waypoint.isNear waypoint = true) {watch : Watch} {events : List (Link × Event)}
    (keeps : ∀ tick ∈ watch.ticks events, tick.KeepsTo waypoint) :
    (destinations (watch.run events).2).length ≤ 1 := by
  induction events generalizing watch with
  | nil => exact Nat.zero_le _
  | cons first events induction =>
      rcases first with ⟨link, news | now⟩
      · exact induction keeps
      · obtain ⟨first, later⟩ := List.forall_mem_cons.mp keeps
        rw [destinations_run_tick]
        cases sends : (watch.tickAt link now).goal? with
        | none => exact induction later
        | some position =>
            obtain ⟨rfl, _⟩ := Tick.goal_of_keepsTo first sends
            rw [destinations_eq_nil near later]
            · exact Nat.le_refl _
            · rw [sentinel_tick, Tick.after_lastCommanded, sends]
              rfl

/--
The memory of a run is its latest reposition.  The policy for a configured waypoint sends the
vehicle there unless the latest reposition was to a place near it, and otherwise lets it return and
keeps the memory.  So a run in which that waypoint is all there is sends one reposition at most.
-/
theorem waypoint_commanded_once (configuration : Configuration) (past : List (Link × Event)) :
    let watch := ((initial configuration).run past).1
    let latest := (destinations ((initial configuration).run past).2).getLast?
    watch.sentinel.waypoints.lastCommanded = latest
      ∧ (∀ link now, (watch.tickAt link now).FiresAtWaypoint →
          let tick := watch.tickAt link now
          (.goTo tick.waypoint Sentinel.anyHeading ∈ tick.commands ↔
              ∀ position ∈ latest, ¬ position.isNear tick.waypoint = true)
            ∧ ((∃ position ∈ latest, position.isNear tick.waypoint = true) →
                .returnToLaunch ∈ tick.commands
                  ∧ tick.commands.filterMap FlightCommand.destination? = []
                  ∧ tick.after.waypoints.lastCommanded = latest))
      ∧ ∀ waypoint : GlobalPosition, waypoint.isNear waypoint = true →
          (∀ tick ∈ (initial configuration).ticks past, tick.KeepsTo waypoint) →
          (destinations ((initial configuration).run past).2).length ≤ 1 := by
  intro watch latest
  have memory : watch.sentinel.waypoints.lastCommanded = latest := by
    rw [lastCommanded_run]
    exact Option.or_none
  refine ⟨memory, ?_, fun waypoint near keeps => destinations_length_le near keeps⟩
  intro link now fires tick
  have recalled : tick.before.waypoints.wasCommanded tick.waypoint = true ↔
      ∃ position ∈ latest, position.isNear tick.waypoint = true := by
    rw [← memory]
    exact tick.before.waypoints.wasCommanded_iff tick.waypoint
  constructor
  · rw [Tick.goTo_mem_iff_of_firesAtWaypoint fires, recalled]
    push Not
    rfl
  · intro visited
    obtain ⟨returns, still⟩ := Tick.returns_of_firesAtWaypoint fires (recalled.mpr visited)
    refine ⟨returns, ?_, ?_⟩
    · rw [tick.commands_destinations, still]
      rfl
    · rw [tick.after_lastCommanded, still]
      exact memory

/--
A landing that is moved to a waypoint over a link that times out, with the target reached and the
protection switched off in between.
-/
def movedLanding : List (Link × Event) :=
  let waypoint : GlobalPosition := ⟨47, 8, 520⟩
  let guarded : Configuration :=
    { Configuration.default with
        enabled := true
        mode := .safeLanding
        landing := ⟨true, .goToWaypoint, false, waypoint, .zero⟩ }
  [.feed (.configuration guarded), .feed (.telemetry (.phase .landing)),
   .feed (.landing .cannotLand), .tick 0, .feed (.telemetry (.position waypoint)), .tick 50000,
   .feed (.configuration .default), .tick 100000, .feed (.configuration guarded)].map
    fun event => ({ Link.accepting with signal := fun _ => some .timeout }, event)

theorem return_after_movedLanding :
    let watch := ((initial .default).run movedLanding).1
    let tick := watch.tickAt .accepting 5000000
    watch.sentinel.waypoints.target = none
      ∧ tick.FiresAtWaypoint
      ∧ destinations ((initial .default).run movedLanding).2 = [tick.waypoint]
      ∧ .returnToLaunch ∈ tick.commands
      ∧ (destinations ((initial .default).run movedLanding).2).length ≤ 1 :=
  ⟨by decide, by decide, by decide,
    (((waypoint_commanded_once .default movedLanding).2.1 .accepting 5000000 (by decide)).2
      ⟨_, rfl, by decide⟩).1,
    (waypoint_commanded_once .default movedLanding).2.2 ⟨47, 8, 520⟩ (by decide) (by decide)⟩

end Watch

end FlightGuard
