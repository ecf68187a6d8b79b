import FlightGuard.Proofs.Watch.Repositions

/-!
# Landings that are tried again

The active target is the destination of the latest reposition until the vehicle arrives there.  An
arrival clears it, so that it is followed by one landing at most, and only another reposition
brings a target back.

The repositions of a run and the landings of its safe landing ticks are kept in one list, in the
order in which they were sent.  Every landing in it spends the reposition before it
(`SpendsRepositions`): a tick passes on whether there is one left to spend, and there is none
without a target.
-/

namespace FlightGuard

/-- Each landing spends a reposition, `pending` telling whether there is one from before. -/
def SpendsRepositions (pending : Bool) : List FlightCommand → Prop
  | [] => True
  | .goTo _ _ :: later => SpendsRepositions true later
  | .land :: later => pending = true ∧ SpendsRepositions false later
  | _ :: later => SpendsRepositions pending later

namespace SpendsRepositions

theorem of_false {commands : List FlightCommand} (spends : SpendsRepositions false commands)
    (pending : Bool) : SpendsRepositions pending commands := by
  induction commands with
  | nil => trivial
  | cons command commands induction =>
      cases command with
      | goTo position heading => exact spends
      | land => exact absurd spends.1 Bool.false_ne_true
      | _ => exact induction spends

theorem of_append {pending : Bool} {front later : List FlightCommand}
    (spends : SpendsRepositions pending (front ++ later)) : SpendsRepositions pending front := by
  induction front generalizing pending with
  | nil => trivial
  | cons command front induction =>
      cases command with
      | goTo position heading => exact induction spends
      | land => exact ⟨spends.1, induction spends.2⟩
      | _ => exact induction spends

/-- Before a landing there is a reposition with no other landing in between. -/
theorem exists_goTo {pending : Bool} {earlier later : List FlightCommand}
    (spends : SpendsRepositions pending (earlier ++ .land :: later)) :
    (pending = true ∧ .land ∉ earlier)
      ∨ ∃ front position heading between,
          earlier = front ++ .goTo position heading :: between ∧ .land ∉ between := by
  induction earlier generalizing pending with
  | nil => exact Or.inl ⟨spends.1, List.not_mem_nil⟩
  | cons command earlier induction =>
      have longer (found : ∃ front position heading between,
          earlier = front ++ .goTo position heading :: between ∧ .land ∉ between) :
          ∃ front position heading between,
            command :: earlier = front ++ .goTo position heading :: between
              ∧ .land ∉ between := by
        obtain ⟨front, position, heading, between, rfl, none⟩ := found
        exact ⟨command :: front, position, heading, between, rfl, none⟩
      cases command with
      | goTo position heading =>
          rcases induction spends with ⟨_, none⟩ | found
          · exact Or.inr ⟨[], position, heading, earlier, rfl, none⟩
          · exact Or.inr (longer found)
      | land =>
          rcases induction spends.2 with ⟨impossible, _⟩ | found
          · contradiction
          · exact Or.inr (longer found)
      | _ =>
          rcases induction spends with ⟨left, none⟩ | found
          · exact Or.inl ⟨left, by simpa using none⟩
          · exact Or.inr (longer found)

/-- There are no more landings than repositions to spend. -/
theorem count_land_le {pending : Bool} {commands : List FlightCommand}
    (spends : SpendsRepositions pending commands) :
    commands.count .land ≤
      pending.toNat + (commands.filterMap FlightCommand.destination?).length := by
  induction commands generalizing pending with
  | nil => exact Nat.zero_le _
  | cons command commands induction =>
      rw [List.count_cons, List.filterMap_cons]
      cases command with
      | goTo position heading =>
          have rest := induction spends
          simp only [FlightCommand.destination?, Bool.toNat_true, List.length_cons] at rest ⊢
          simp
          omega
      | land =>
          have rest := induction spends.2
          simp only [FlightCommand.destination?, spends.1, Bool.toNat_true, Bool.toNat_false,
            BEq.rfl, if_true] at rest ⊢
          omega
      | _ => simpa [FlightCommand.destination?] using induction spends

end SpendsRepositions

namespace Sentinel

/-- A reaction to a landing site is never to land. -/
theorem landingResponse_command_ne_land (policy : LandingPolicy) (telemetry : Telemetry)
    (waypoints : WaypointMemory) :
    (landingResponse policy telemetry waypoints).command ≠ .land := by
  rw [landingResponse]
  cases policy.reaction with
  | moveByBodyOffset =>
      cases offsetTarget? policy telemetry <;> simp [Response.announced, Response.reposition]
  | goToWaypoint =>
      cases waypoints.wasCommanded policy.waypoint <;>
        simp [Response.announced, Response.reposition]
  | _ => simp [Response.announced, Response.unsupported]

end Sentinel

/-! ## One tick -/

namespace Tick

/-- An arrival clears the target, and nothing else does. -/
theorem after_target (tick : Tick) :
    tick.after.waypoints.target =
      if tick.situation.GuardsLanding
          ∧ tick.reacted.waypoints.hasArrived tick.situation.telemetry.position = true
      then none
      else tick.reacted.waypoints.target := by
  change (tick.reacted.arrive tick.situation).1.waypoints.target = _
  rw [Sentinel.arrive]
  simp only [Sentinel.activeMode_eq_safeLanding_iff]
  split <;> rfl

/-- The target at the arrival check is the goal of the tick, or else the earlier one. -/
theorem target_eq_or (tick : Tick) :
    tick.target? = tick.goal?.or tick.before.waypoints.target := by
  rw [target_eq, reacted_waypoints]
  cases tick.goal? <;> rfl

/-- A target behind a tick is its goal, or else it was the target before. -/
theorem target_of_after {tick : Tick} {target : GlobalPosition}
    (active : tick.after.waypoints.target = some target) :
    tick.goal?.or tick.before.waypoints.target = some target := by
  rw [after_target] at active
  split at active
  · contradiction
  · rw [← target_eq_or, target_eq]
    exact active

theorem land_not_mem_reaction {tick : Tick}
    (guards : tick.situation.configuration.mode = .safeLanding) : .land ∉ tick.reaction := by
  intro member
  rw [reaction, Option.mem_toList] at member
  obtain ⟨response, called, lands⟩ := Option.map_eq_some_iff.mp member
  rcases Sentinel.danger_cases (danger_of_response called) with
    ⟨_, _, _, rfl⟩ | ⟨_, _, _, rfl⟩ | ⟨⟨_, avoids, _⟩, _⟩
  · contradiction
  · exact Sentinel.landingResponse_command_ne_land _ _ _ lands
  · rw [guards] at avoids
    contradiction

/-- A landing of a safe landing tick follows an arrival. -/
theorem retriesLanding_of_land {tick : Tick}
    (guards : tick.situation.configuration.mode = .safeLanding)
    (lands : .land ∈ tick.commands) : tick.RetriesLanding := by
  rw [commands_eq, List.mem_append] at lands
  have arrival := lands.resolve_left (land_not_mem_reaction guards)
  rcases tick.arrival_cases with none | landing
  · simp [none] at arrival
  · exact tick.arrival_eq_land_iff.mp landing

/-- The repositions of a tick and, in safe landing mode, its landings. -/
def approaches (tick : Tick) : List FlightCommand :=
  tick.commands.filter fun command =>
    command.destination?.isSome
      || (command = .land && tick.situation.configuration.mode = .safeLanding)

theorem approaches_eq (tick : Tick) :
    tick.approaches =
      tick.reaction.filter (fun command => command.destination?.isSome) ++ tick.arrival := by
  rw [approaches, commands_eq, List.filter_append]
  congr 1
  · apply List.filter_congr
    intro command member
    by_cases guards : tick.situation.configuration.mode = .safeLanding
    · have other : command ≠ .land := fun lands => land_not_mem_reaction guards (lands ▸ member)
      simp [other]
    · simp [guards]
  · rcases tick.arrival_cases with none | landing
    · simp [none]
    · simp [landing, (tick.arrival_eq_land_iff.mp landing).1.2.1]

/-- The repositions of a reaction are its goal. -/
theorem reaction_filter (tick : Tick) :
    ∃ heading, tick.reaction.filter (fun command => command.destination?.isSome) =
      tick.goal?.toList.map fun position => .goTo position heading := by
  rw [reaction, goal?]
  cases answer : tick.response? with
  | none => exact ⟨Sentinel.anyHeading, rfl⟩
  | some response =>
      rw [Option.bind_some, response_target answer, Option.map_some]
      cases response.command with
      | goTo position heading => exact ⟨heading, rfl⟩
      | _ => exact ⟨Sentinel.anyHeading, rfl⟩

/-- The arrival of a tick spends the target that it clears. -/
theorem spends_arrival {tick : Tick} {later : List FlightCommand}
    (spends : SpendsRepositions tick.after.waypoints.target.isSome later) :
    SpendsRepositions tick.reacted.waypoints.target.isSome (tick.arrival ++ later) := by
  rw [after_target] at spends
  rcases tick.arrival_cases with none | landing
  · rw [none, List.nil_append]
    -- An arrival clears the target also where it is not followed by a landing.
    split at spends
    · exact spends.of_false _
    · exact spends
  · have retries := tick.arrival_eq_land_iff.mp landing
    obtain ⟨guards, ⟨target, active, near⟩, _⟩ := retries
    rw [Option.mem_def, target_eq] at active
    have arrived :
        tick.reacted.waypoints.hasArrived tick.situation.telemetry.position = true := by
      rw [WaypointMemory.hasArrived, active, Option.any_some, near]
    rw [if_pos ⟨guards, arrived⟩] at spends
    rw [landing, active]
    exact ⟨rfl, spends⟩

/-- A tick spends the target that it finds or sets. -/
theorem spends_approaches (tick : Tick) {later : List FlightCommand}
    (spends : SpendsRepositions tick.after.waypoints.target.isSome later) :
    SpendsRepositions tick.before.waypoints.target.isSome (tick.approaches ++ later) := by
  have rest := spends_arrival spends
  rw [reacted_waypoints] at rest
  rw [approaches_eq, List.append_assoc]
  obtain ⟨heading, moves⟩ := tick.reaction_filter
  rw [moves]
  generalize tick.goal? = goal at rest ⊢
  cases goal with
  | none => exact rest
  | some position => exact rest

end Tick

/-! ## Runs -/

namespace Watch

/-- The target that a run leaves is its latest reposition, or else the target that it found. -/
theorem target_run {watch : Watch} {events : List (Link × Event)} {target : GlobalPosition}
    (active : (watch.run events).1.sentinel.waypoints.target = some target) :
    (destinations (watch.run events).2).getLast?.or watch.sentinel.waypoints.target =
      some target := by
  induction events generalizing watch with
  | nil => exact active
  | cons first events induction =>
      rcases first with ⟨link, news | now⟩
      · rw [run_feed] at active ⊢
        exact induction active
      · rw [run_tick] at active
        rw [latest_run_tick, Option.or_assoc]
        have found := induction active
        cases latest : (destinations ((watch.tick link now).1.run events).2).getLast? with
        | some position =>
            rw [latest] at found
            exact found
        | none =>
            rw [latest, Option.none_or, sentinel_tick] at found
            exact Tick.target_of_after found

theorem spends_ticks (watch : Watch) (events : List (Link × Event)) :
    SpendsRepositions watch.sentinel.waypoints.target.isSome
      ((watch.ticks events).flatMap Tick.approaches) := by
  induction events generalizing watch with
  | nil => trivial
  | cons first events induction =>
      rcases first with ⟨link, news | now⟩
      · exact induction (watch.update news)
      · rw [ticks_tick, List.flatMap_cons]
        exact (watch.tickAt link now).spends_approaches (induction (watch.tick link now).1)

/--
The active target is the latest reposition, and it does not come back without another one.  Where
a safe landing tick lands the vehicle, the vehicle is near that target, the landing is to be tried
again and the vehicle is not on the ground.  There is a reposition between any two such landings
and before the first of them, so that there are never more of them than there are repositions.
-/
theorem landings_spend_repositions (configuration : Configuration)
    (past : List (Link × Event)) :
    let watch := ((initial configuration).run past).1
    let sent := ((initial configuration).run past).2
    let approaches := ((initial configuration).ticks past).flatMap Tick.approaches
    (∀ target ∈ watch.sentinel.waypoints.target, (destinations sent).getLast? = some target)
      ∧ (watch.sentinel.waypoints.target = none →
          ∀ later, ∀ target ∈ (watch.run later).1.sentinel.waypoints.target,
            (destinations (watch.run later).2).getLast? = some target)
      ∧ (∀ link now,
          let tick := watch.tickAt link now
          tick.situation.configuration.mode = .safeLanding → .land ∈ tick.commands →
            ∃ target, tick.target? = some target
              ∧ (destinations (sent ++ link.transmit tick.signals)).getLast? = some target
              ∧ target.isNear tick.situation.telemetry.position = true
              ∧ tick.situation.configuration.landing.retryLanding = true
              ∧ tick.situation.telemetry.phase ≠ .onGround)
      ∧ (∀ earlier later, approaches = earlier ++ .land :: later →
          ∃ front position heading between,
            earlier = front ++ .goTo position heading :: between ∧ .land ∉ between)
      ∧ ∀ front, front <+: approaches →
          front.count .land ≤ (front.filterMap FlightCommand.destination?).length := by
  intro watch sent approaches
  have spends : SpendsRepositions false approaches := spends_ticks (initial configuration) past
  have active : ∀ target, watch.sentinel.waypoints.target = some target →
      (destinations sent).getLast? = some target := by
    intro target found
    have latest := target_run found
    rwa [show (initial configuration).sentinel.waypoints.target = none from rfl,
      Option.or_none] at latest
  refine ⟨active, ?_, ?_, ?_, ?_⟩
  · intro cleared later target found
    have latest := target_run found
    rwa [cleared, Option.or_none] at latest
  · intro link now tick guards lands
    obtain ⟨_, ⟨target, found, near⟩, retry, phase⟩ := Tick.retriesLanding_of_land guards lands
    refine ⟨target, found, ?_, near, retry, phase⟩
    rw [Option.mem_def, Tick.target_eq_or] at found
    have goal : destinations (link.transmit tick.signals) = tick.goal?.toList :=
      (destinations_transmit link _).trans tick.commands_destinations
    rw [destinations_append, List.getLast?_append, goal]
    generalize tick.goal? = goal at found ⊢
    cases goal with
    | some position => exact found
    | none => exact active target found
  · rintro earlier later split
    rw [split] at spends
    exact spends.exists_goTo.resolve_left fun impossible => Bool.false_ne_true impossible.1
  · rintro front ⟨later, split⟩
    rw [← split] at spends
    simpa using spends.of_append.count_land_le

/--
Two landings that are moved to a waypoint each, with an arrival at either of them.  The vehicle
stays where it has arrived, and there is no other landing on account of that.
-/
def twiceMovedLanding : List (Link × Event) :=
  let guarded (waypoint : GlobalPosition) : Configuration :=
    { Configuration.default with
        enabled := true
        mode := .safeLanding
        landing := ⟨true, .goToWaypoint, true, waypoint, .zero⟩ }
  [.feed (.configuration (guarded ⟨47, 8, 520⟩)), .feed (.telemetry (.phase .landing)),
   .feed (.landing .cannotLand), .tick 0,
   .feed (.telemetry (.position ⟨47, 8, 520⟩)), .tick 50000, .tick 100000,
   .feed (.configuration (guarded ⟨48, 8, 520⟩)), .tick 5000000,
   .feed (.telemetry (.position ⟨48, 8, 520⟩)), .tick 5050000, .tick 5100000].map
    fun event => (.accepting, event)

theorem approaches_of_twiceMovedLanding :
    let approaches := ((initial .default).ticks twiceMovedLanding).flatMap Tick.approaches
    let first := FlightCommand.goTo ⟨47, 8, 520⟩ Sentinel.anyHeading
    let second := FlightCommand.goTo ⟨48, 8, 520⟩ Sentinel.anyHeading
    approaches = [first, .land, second, .land]
      ∧ (∃ front position heading between,
          [first, .land, second] = front ++ .goTo position heading :: between
            ∧ .land ∉ between)
      ∧ approaches.count .land ≤ (approaches.filterMap FlightCommand.destination?).length :=
  ⟨by decide,
    (landings_spend_repositions .default twiceMovedLanding).2.2.2.1 _ [] (by decide),
    (landings_spend_repositions .default twiceMovedLanding).2.2.2.2 _ (List.prefix_refl _)⟩

end Watch

end FlightGuard
