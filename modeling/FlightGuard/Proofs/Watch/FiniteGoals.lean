import FlightGuard.Configuration.Form
import FlightGuard.Proofs.Document.Records
import FlightGuard.Proofs.Watch.LandingRetries

/-!
# Destinations are finite

A vehicle is sent to a configured waypoint or to a point that is projected from the telemetry.  The
telemetry may hold anything, so a projected point is checked, and where there is none or it is not
finite the vehicle holds.  A waypoint is not checked.  It is finite because it was written in a
text: a numeral has a finite value or is refused.
-/

namespace FlightGuard

open Decoder

/-! ## Written configurations -/

theorem waypointDecoder_isFinite {document : Document} {position : GlobalPosition}
    (decoded : waypointDecoder document = .ok position) : position.isFinite = true := by
  refine record_preserves (fun position => position.isFinite = true) (by decide) ?_ (by decide)
    decoded
  simp only [waypointFields, List.forall_mem_cons]
  refine ⟨withDefault_preserves ?_, withDefault_preserves ?_, withDefault_preserves ?_,
    List.forall_mem_nil _⟩ <;>
    intro document value position read finite <;>
    simp_all [GlobalPosition.isFinite, double_isFinite read]

theorem LandingPolicy.decoder_isFinite {document : Document} {policy : LandingPolicy}
    (decoded : LandingPolicy.decoder document = .ok policy) : policy.waypoint.isFinite = true := by
  refine record_preserves (fun policy => policy.waypoint.isFinite = true) (by decide) ?_
    (by decide) decoded
  simp only [LandingPolicy.fields, List.forall_mem_cons]
  exact ⟨withDefault_preserves fun _ _ _ _ finite => finite,
    withDefault_preserves fun _ _ _ _ finite => finite,
    withDefault_preserves fun _ _ _ _ finite => finite,
    withDefault_preserves fun _ _ _ read _ => waypointDecoder_isFinite read,
    withDefault_preserves fun _ _ _ _ finite => finite, List.forall_mem_nil _⟩

theorem Configuration.decoder_isFinite {document : Document} {configuration : Configuration}
    (decoded : Configuration.decoder document = .ok configuration) :
    configuration.landing.waypoint.isFinite = true := by
  refine record_preserves (fun configuration => configuration.landing.waypoint.isFinite = true)
    (by decide) ?_ (by decide) decoded
  simp only [Configuration.fields, List.forall_mem_cons]
  exact ⟨withDefault_preserves fun _ _ _ _ finite => finite,
    withDefault_preserves fun _ _ _ _ finite => finite,
    withDefault_preserves fun _ _ _ read _ => LandingPolicy.decoder_isFinite read,
    withDefault_preserves fun _ _ _ _ finite => finite, List.forall_mem_nil _⟩

namespace Configuration

/-- The default configuration, or one that a text gives. -/
def IsWritten (configuration : Configuration) : Prop :=
  configuration = .default ∨ ∃ text, decoder.ofText text = .ok configuration

theorem IsWritten.of_reading {text : String} {document : Document}
    {configuration : Configuration} (reading : Reading.ofText text = ⟨document, false⟩)
    (decoded : decoder document = .ok configuration) : configuration.IsWritten := by
  refine Or.inr ⟨text, ?_⟩
  rw [ofText_eq_ok_iff, reading]
  exact ⟨decoded, rfl⟩

/-- Only finite waypoints can be written. -/
theorem IsWritten.waypoint_isFinite {configuration : Configuration}
    (written : configuration.IsWritten) : configuration.landing.waypoint.isFinite = true := by
  rcases written with rfl | ⟨text, read⟩
  · decide
  · exact decoder_isFinite (ofText_eq_ok_iff.mp read).1

end Configuration

namespace Sentinel

theorem offsetTarget_isFinite {policy : LandingPolicy} {telemetry : Telemetry}
    {position : GlobalPosition} (projected : offsetTarget? policy telemetry = some position) :
    position.isFinite = true :=
  (Option.filter_eq_some_iff.mp projected).2

end Sentinel

/-! ## One tick -/

namespace Tick

theorem goal_isFinite {tick : Tick} {position : GlobalPosition}
    (written : tick.waypoint.isFinite = true) (sends : tick.goal? = some position) :
    position.isFinite = true := by
  obtain ⟨response, called, moves⟩ := Option.bind_eq_some_iff.mp sends
  rcases Sentinel.target_cases (danger_of_response called) moves with
    ⟨_, projected⟩ | ⟨_, rfl, _⟩
  · exact Sentinel.offsetTarget_isFinite projected
  · exact written

/-- The tick carries out the policy that moves the vehicle by an offset. -/
def FiresAtOffset (tick : Tick) : Prop :=
  tick.fires = true
    ∧ tick.situation.GuardsLanding
    ∧ tick.situation.landing = .cannotLand
    ∧ tick.situation.configuration.landing.reaction = .moveByBodyOffset

instance (tick : Tick) : Decidable tick.FiresAtOffset :=
  inferInstanceAs (Decidable (_ ∧ _ ∧ _ ∧ _))

/-- The point that the configured offset leads to, where it can be projected; it may be anywhere. -/
def offsetPoint? (tick : Tick) : Option GlobalPosition :=
  let telemetry := tick.situation.telemetry
  let offset := tick.situation.configuration.landing.offset
  (telemetry.projectBodyOffset offset.forward offset.right).map fun place =>
    ⟨place.1, place.2, telemetry.position.altitude + offset.up⟩

theorem response_of_firesAtOffset {tick : Tick} (fires : tick.FiresAtOffset)
    (astray : ∀ point ∈ tick.offsetPoint?, ¬ point.isFinite = true) :
    tick.response? = some (.announced .hold .warning
      "Local position or origin unknown, cannot move XYZ. Holding position...") := by
  obtain ⟨fired, guards, blocked, offset⟩ := fires
  have nowhere : Sentinel.offsetTarget? tick.situation.configuration.landing
      tick.situation.telemetry = none := by
    change tick.offsetPoint?.filter GlobalPosition.isFinite = none
    exact Option.filter_eq_none_iff.mpr astray
  rw [response_of_cannotLand fired guards blocked, Sentinel.landingResponse, offset]
  simp only [nowhere]

/-- Without a finite point to move to the vehicle holds, and no target comes out of it. -/
theorem holds_of_firesAtOffset {tick : Tick} (fires : tick.FiresAtOffset)
    (astray : ∀ point ∈ tick.offsetPoint?, ¬ point.isFinite = true) :
    tick.commands = .hold :: tick.arrival
      ∧ tick.commands.filterMap FlightCommand.destination? = []
      ∧ tick.after.waypoints.lastCommanded = tick.before.waypoints.lastCommanded
      ∧ ∀ target ∈ tick.after.waypoints.target, tick.before.waypoints.target = some target := by
  have response := response_of_firesAtOffset fires astray
  have still : tick.goal? = none := by
    rw [goal?, response]
    rfl
  refine ⟨?_, ?_, ?_, ?_⟩
  · rw [commands_eq, reaction, response]
    rfl
  · rw [commands_destinations, still]
    rfl
  · rw [after_lastCommanded, still]
    rfl
  · intro target active
    have found := target_of_after active
    rwa [still, Option.none_or] at found

end Tick

/-! ## Runs -/

namespace Watch

/-- A run sends the vehicle where its ticks send it. -/
theorem destinations_run (watch : Watch) (events : List (Link × Event)) :
    destinations (watch.run events).2 =
      (watch.ticks events).flatMap fun tick => tick.goal?.toList := by
  have sent (tick : Tick) :
      destinations (tick.link.transmit tick.signals) = tick.goal?.toList :=
    (destinations_transmit _ _).trans tick.commands_destinations
  simp only [run_sent, ← sent, destinations, List.filterMap_flatMap]

/-- The configuration in force is the one at the beginning or one that came in since. -/
theorem configuration_run_cases (watch : Watch) (events : List (Link × Event)) :
    let value := (watch.run events).1.feeds.configuration
    value = watch.feeds.configuration ∨ .configuration value ∈ newsOf events := by
  rw [feeds_run]
  generalize watch.feeds = feeds
  induction newsOf events generalizing feeds with
  | nil => exact Or.inl rfl
  | cons first news induction =>
      rcases induction (feeds.update first) with same | later
      · rw [List.foldl_cons, same]
        cases first with
        | configuration value => exact Or.inr List.mem_cons_self
        | telemetry _ | landing _ | noLandingData | obstacle _ | time _ => exact Or.inl rfl
      · exact Or.inr (List.mem_cons_of_mem _ later)

/-- Every configuration of the run is the default one or was written in a text. -/
def OnlyWritten (configuration : Configuration) (events : List (Link × Event)) : Prop :=
  configuration.IsWritten ∧ ∀ value, .configuration value ∈ newsOf events → value.IsWritten

theorem goal_isFinite_of_onlyWritten {configuration : Configuration}
    {events : List (Link × Event)} (written : OnlyWritten configuration events) {tick : Tick}
    (member : tick ∈ (initial configuration).ticks events) {position : GlobalPosition}
    (sends : tick.goal? = some position) : position.isFinite = true := by
  obtain ⟨past, link, now, later, rfl, rfl⟩ := mem_ticks_iff.mp member
  refine Tick.goal_isFinite (Configuration.IsWritten.waypoint_isFinite ?_) sends
  change ((initial configuration).run past).1.feeds.configuration.IsWritten
  rcases configuration_run_cases (initial configuration) past with same | given
  · rw [same]
    exact written.1
  · refine written.2 _ ?_
    rw [newsOf, List.filterMap_append]
    exact List.mem_append_left _ given

/--
Whatever the telemetry holds, a run with written configurations sends the vehicle to finite
positions only, and remembers no others.  A tick that is to move the vehicle to a point that is not
known or not finite holds it, and leaves what is remembered as it was.
-/
theorem destinations_isFinite {configuration : Configuration} {past : List (Link × Event)}
    (written : OnlyWritten configuration past) :
    let watch := ((initial configuration).run past).1
    (∀ position ∈ destinations ((initial configuration).run past).2, position.isFinite = true)
      ∧ (∀ target ∈ watch.sentinel.waypoints.target, target.isFinite = true)
      ∧ (∀ latest ∈ watch.sentinel.waypoints.lastCommanded, latest.isFinite = true)
      ∧ ∀ link now,
          let tick := watch.tickAt link now
          tick.FiresAtOffset → (∀ point ∈ tick.offsetPoint?, ¬ point.isFinite = true) →
            tick.commands = .hold :: tick.arrival
              ∧ tick.commands.filterMap FlightCommand.destination? = []
              ∧ tick.after.waypoints.lastCommanded = tick.before.waypoints.lastCommanded
              ∧ ∀ target ∈ tick.after.waypoints.target,
                  tick.before.waypoints.target = some target := by
  intro watch
  have sent : ∀ position ∈ destinations ((initial configuration).run past).2,
      position.isFinite = true := by
    intro position member
    rw [destinations_run] at member
    obtain ⟨tick, made, sends⟩ := List.mem_flatMap.mp member
    exact goal_isFinite_of_onlyWritten written made (Option.mem_toList.mp sends)
  -- What is remembered is the latest destination.
  have latest : ∀ position,
      (destinations ((initial configuration).run past).2).getLast? = some position →
        position.isFinite = true :=
    fun position last => sent position (List.mem_of_getLast? last)
  refine ⟨sent, ?_, ?_, fun link now fires astray => Tick.holds_of_firesAtOffset fires astray⟩
  · intro target active
    exact latest target (Option.or_none.symm.trans (target_run active))
  · intro position remembered
    rw [lastCommanded_run] at remembered
    exact latest position (Option.or_none.symm.trans remembered)

/-- A configuration with a waypoint for landings. -/
def waypointConfiguration : Configuration :=
  ⟨true, .safeLanding, ⟨true, .goToWaypoint, false, ⟨47.5, -8, 520⟩, .zero⟩, .default⟩

/-- A configuration with an offset for landings. -/
def offsetConfiguration : Configuration :=
  ⟨true, .safeLanding, ⟨true, .moveByBodyOffset, false, .zero, ⟨10, 0, 5⟩⟩, .default⟩

theorem waypointConfiguration_isWritten : waypointConfiguration.IsWritten := by
  have reading : Reading.ofText
      "[true,\"SAFE_LANDING\",[true,\"GO_TO_WAYPOINT\",false,[47.5,-8,520]]]" =
      ⟨.list
        [.truth true, .ofString "SAFE_LANDING",
          .list
            [.truth true, .ofString "GO_TO_WAYPOINT", .truth false,
              .list
                [.number ⟨⟨false, 475, -1⟩, false⟩, .number ⟨⟨true, 8, 0⟩, true⟩,
                  .number ⟨⟨false, 520, 0⟩, true⟩] .closed] .closed] .closed, false⟩ := by
    cbv
  exact .of_reading reading (by decide +kernel)

theorem offsetConfiguration_isWritten : offsetConfiguration.IsWritten := by
  have reading : Reading.ofText
      "[true,\"SAFE_LANDING\",[true,\"MOVE_XYZ_WRT_CURRENT\",false,[],[1e1,0,5]]]" =
      ⟨.list
        [.truth true, .ofString "SAFE_LANDING",
          .list
            [.truth true, .ofString "MOVE_XYZ_WRT_CURRENT", .truth false, .list [] .closed,
              .list
                [.number ⟨⟨false, 1, 1⟩, false⟩, .number ⟨⟨false, 0, 0⟩, true⟩,
                  .number ⟨⟨false, 5, 0⟩, true⟩] .closed] .closed] .closed, false⟩ := by
    cbv
  exact .of_reading reading (by decide +kernel)

/--
A landing that is moved to the waypoint while nothing else is known, and has to be moved by an
offset later, when all is known but the altitude is infinite.
-/
def boundlessLanding : List (Link × Event) :=
  [.feed (.telemetry (.phase .landing)), .feed (.landing .cannotLand), .tick 0,
   .feed (.configuration offsetConfiguration),
   .feed (.telemetry (.position ⟨unknownNumber, unknownNumber, 1 / 0⟩)),
   .feed (.telemetry (.motion ⟨0, 0, 0⟩ ⟨0, 0, 0⟩)), .feed (.telemetry (.heading 90)),
   .feed (.telemetry (.origin ⟨47, 8⟩))].map
    fun event => (.accepting, event)

theorem hold_after_boundlessLanding :
    let watch := ((initial waypointConfiguration).run boundlessLanding).1
    let tick := watch.tickAt .accepting 5000000
    OnlyWritten waypointConfiguration boundlessLanding
      ∧ destinations ((initial waypointConfiguration).run boundlessLanding).2 = [⟨47.5, -8, 520⟩]
      ∧ (∀ target ∈ watch.sentinel.waypoints.target, target.isFinite = true)
      ∧ tick.FiresAtOffset
      ∧ tick.offsetPoint?.isSome = true
      ∧ tick.commands = .hold :: tick.arrival
      ∧ tick.before.waypoints.target = some ⟨47.5, -8, 520⟩ := by
  intro watch tick
  have written : OnlyWritten waypointConfiguration boundlessLanding := by
    refine ⟨waypointConfiguration_isWritten, ?_⟩
    intro value member
    have same : value = offsetConfiguration := by
      simpa [boundlessLanding, newsOf, Event.news?] using member
    exact same ▸ offsetConfiguration_isWritten
  have fires : tick.FiresAtOffset :=
    ⟨tick.fires_iff_eligible.mpr (by decide +kernel), by decide, by decide, by decide⟩
  have astray : ∀ point ∈ tick.offsetPoint?, ¬ point.isFinite = true := by
    intro point member
    obtain ⟨place, _, rfl⟩ := Option.map_eq_some_iff.mp member
    have endless : (tick.situation.telemetry.position.altitude + 5).isFinite = false := by
      decide +kernel
    exact fun finite => Bool.eq_false_iff.mp endless (Bool.and_eq_true_iff.mp finite).2
  obtain ⟨_, active, _, holds⟩ := destinations_isFinite written
  exact ⟨written, by decide, active, fires, by decide +kernel, (holds _ _ fires astray).1,
    by decide⟩

end Watch

end FlightGuard
