import FlightGuard.Proofs.Watch.LandingRetries

/-!
# Targets that are overruled

A reaction that is no reposition leaves the target as it is.  Where there is one, the vehicle that
was told to hold or to return is still landed when it comes past the target, even if that is the
very waypoint it was turned away from.  Such a reaction overrules the target
(`Tick.Overrules`).

As long as nothing is overruled, the active target is the destination of the command that was fired
last, so that a landing is only tried again on account of that command.  Once a target is
overruled and the vehicle is not there, some later tick lands it.
-/

namespace FlightGuard

/-- Where the latest of some commands sends the vehicle, if it names a place. -/
def latestDestination? (commands : List FlightCommand) : Option GlobalPosition :=
  commands.getLast?.bind FlightCommand.destination?

theorem latestDestination_eq_some_iff {commands : List FlightCommand} {target : GlobalPosition} :
    latestDestination? commands = some target ↔
      ∃ heading, commands.getLast? = some (.goTo target heading) := by
  rw [latestDestination?, Option.bind_eq_some_iff]
  constructor
  · rintro ⟨command, latest, moves⟩
    cases command with
    | goTo position heading =>
        cases moves
        exact ⟨heading, latest⟩
    | _ => cases moves
  · rintro ⟨heading, latest⟩
    exact ⟨_, latest, rfl⟩

/-! ## One tick -/

namespace Tick

/-- The tick fires a command that names no place, and finds the target of an earlier one. -/
def Overrules (tick : Tick) : Prop :=
  tick.fires = true ∧ tick.goal? = none ∧ tick.before.waypoints.target.isSome = true

instance (tick : Tick) : Decidable tick.Overrules :=
  inferInstanceAs (Decidable (_ ∧ _ ∧ _))

theorem goal_of_not_fires {tick : Tick} (quiet : ¬ tick.fires = true) : tick.goal? = none := by
  rw [fires_iff_response, Option.not_isSome_iff_eq_none] at quiet
  rw [goal?, quiet, Option.bind_none]

/-- A tick that fires replaces the latest destination by its goal. -/
theorem latestDestination_append_reaction (fired : List FlightCommand) (tick : Tick) :
    latestDestination? (fired ++ tick.reaction) =
      if tick.fires then tick.goal? else latestDestination? fired := by
  have fires := tick.fires_iff_response
  rw [reaction, goal?]
  cases answer : tick.response? with
  | none =>
      rw [answer] at fires
      have quiet : tick.fires = false := by simpa using fires
      rw [quiet, Option.map_none, Option.toList_none, List.append_nil]
      rfl
  | some response =>
      rw [answer] at fires
      rw [fires.mpr rfl, if_pos rfl, Option.bind_some, response_target answer, latestDestination?,
        Option.map_some, Option.toList_some, List.getLast?_concat, Option.bind_some]

/-- A tick that overrules nothing pursues the latest destination, if it pursues one. -/
theorem latestDestination_of_target {tick : Tick} (heeds : ¬ tick.Overrules)
    {fired : List FlightCommand}
    (latest : ∀ target ∈ tick.before.waypoints.target, latestDestination? fired = some target)
    {target : GlobalPosition} (active : tick.target? = some target) :
    latestDestination? (fired ++ tick.reaction) = some target := by
  rw [latestDestination_append_reaction]
  rw [target_eq_or] at active
  split
  next fired =>
    cases goal : tick.goal? with
    | some position => rwa [goal, Option.some_or] at active
    | none =>
        rw [goal, Option.none_or] at active
        exact absurd ⟨fired, goal, by rw [active]; rfl⟩ heeds
  next quiet =>
    rw [goal_of_not_fires quiet, Option.none_or] at active
    exact latest target active

theorem target_eq_of_after {tick : Tick} {target : GlobalPosition}
    (active : tick.after.waypoints.target = some target) : tick.target? = some target := by
  rw [target_eq_or]
  exact target_of_after active

/-- A command that names no place and overrules nothing leaves no target behind. -/
theorem after_target_of_heeds {tick : Tick} (heeds : ¬ tick.Overrules)
    (fires : tick.fires = true) (still : tick.goal? = none) :
    tick.after.waypoints.target = none := by
  by_contra active
  obtain ⟨target, active⟩ := Option.ne_none_iff_exists'.mp active
  have before := target_of_after active
  rw [still, Option.none_or] at before
  exact heeds ⟨fires, still, by rw [before]; rfl⟩

/-- What is overruled stays the target unless the vehicle is there. -/
theorem after_target_of_overrules {tick : Tick} (overrules : tick.Overrules)
    {target : GlobalPosition} (active : tick.before.waypoints.target = some target) :
    tick.after.waypoints.target =
      if tick.situation.GuardsLanding
          ∧ target.isNear tick.situation.telemetry.position = true
      then none
      else some target := by
  rw [after_target, reacted_waypoints, overrules.2.1, Option.elim_none, WaypointMemory.hasArrived,
    active, Option.any_some]

end Tick

/-! ## Runs -/

namespace Watch

/-- The commands that the reactions of a run have fired, the landings behind arrivals left out. -/
def fired (watch : Watch) (events : List (Link × Event)) : List FlightCommand :=
  (watch.ticks events).flatMap Tick.reaction

/-- A run that overrules nothing leaves the destination of its latest command as the target. -/
theorem latestDestination_run {watch : Watch} {events : List (Link × Event)}
    {fired : List FlightCommand}
    (latest : ∀ target ∈ watch.sentinel.waypoints.target,
      latestDestination? fired = some target)
    (heeds : ∀ tick ∈ watch.ticks events, ¬ tick.Overrules) :
    ∀ target ∈ (watch.run events).1.sentinel.waypoints.target,
      latestDestination? (fired ++ watch.fired events) = some target := by
  induction events generalizing watch fired with
  | nil =>
      rw [Watch.fired, ticks, List.flatMap_nil, List.append_nil]
      exact latest
  | cons first events induction =>
      rcases first with ⟨link, news | now⟩
      · exact induction latest heeds
      · obtain ⟨first, later⟩ := List.forall_mem_cons.mp heeds
        rw [Watch.fired, ticks_tick, List.flatMap_cons, ← List.append_assoc]
        refine induction ?_ later
        intro target active
        exact Tick.latestDestination_of_target first latest (Tick.target_eq_of_after active)

theorem latestDestination_run_initial {configuration : Configuration}
    {events : List (Link × Event)}
    (heeds : ∀ tick ∈ (initial configuration).ticks events, ¬ tick.Overrules) :
    ∀ target ∈ ((initial configuration).run events).1.sentinel.waypoints.target,
      latestDestination? ((initial configuration).fired events) = some target := by
  have empty : ∀ target ∈ (initial configuration).sentinel.waypoints.target,
      latestDestination? [] = some target :=
    fun target active => absurd active (Option.not_mem_none target)
  exact latestDestination_run empty heeds

/-- Without a target and without another reposition no landing is tried again. -/
theorem not_retriesLanding_of_no_goal {watch : Watch} {events : List (Link × Event)}
    (cleared : watch.sentinel.waypoints.target = none)
    (still : ∀ tick ∈ watch.ticks events, tick.goal? = none) :
    ∀ tick ∈ watch.ticks events, ¬ tick.RetriesLanding := by
  induction events generalizing watch with
  | nil => exact fun tick member => absurd member List.not_mem_nil
  | cons first events induction =>
      rcases first with ⟨link, news | now⟩
      · exact induction cleared still
      · rw [ticks_tick] at still
        obtain ⟨first, later⟩ := List.forall_mem_cons.mp still
        have none_left : (watch.tickAt link now).target? = none := by
          rw [Tick.target_eq_or, first, Option.none_or]
          exact cleared
        rw [ticks_tick, List.forall_mem_cons]
        constructor
        · rintro ⟨_, ⟨target, active, _⟩, _⟩
          rw [none_left] at active
          contradiction
        · refine induction ?_ later
          by_contra active
          obtain ⟨target, active⟩ := Option.ne_none_iff_exists'.mp active
          rw [sentinel_tick] at active
          rw [Tick.target_eq_of_after active] at none_left
          contradiction

/-- Safe landing is on, with another try behind an arrival, and the vehicle flies at a place. -/
def passing (configuration : Configuration) (place : GlobalPosition) : List (Link × Event) :=
  let guarded : Configuration :=
    { configuration with
        enabled := true
        mode := .safeLanding
        landing := { configuration.landing with enabled := true, retryLanding := true } }
  [.feed (.configuration guarded), .feed (.telemetry (.phase .inAir)),
   .feed (.telemetry (.position place))].map fun event => (.accepting, event)

/-- A vehicle that comes past the target is landed, and nothing else is sent. -/
theorem commands_of_passing {watch : Watch} {target place : GlobalPosition}
    (active : watch.sentinel.waypoints.target = some target)
    (near : target.isNear place = true) (link : Link) (now : Int) :
    let tick := (watch.run (passing watch.feeds.configuration place)).1.tickAt link now
    tick.reaction = [] ∧ tick.RetriesLanding ∧ tick.commands = [.land] := by
  intro tick
  have quiet : ¬ tick.fires = true := by
    rw [Tick.fires_iff_eligible]
    rintro ⟨_, ⟨_, landing, _⟩ | ⟨⟨_, avoids, _⟩, _⟩⟩
    · exact FlightPhase.noConfusion landing
    · exact Mode.noConfusion avoids
  have silent : tick.reaction = [] := by
    rw [← List.length_eq_zero_iff, tick.reaction_length, if_neg quiet]
  have retries : tick.RetriesLanding := by
    refine ⟨⟨rfl, rfl, rfl⟩, ⟨target, ?_, near⟩, rfl, FlightPhase.noConfusion⟩
    rw [Option.mem_def, Tick.target_eq_or, Tick.goal_of_not_fires quiet, Option.none_or]
    exact active
  refine ⟨silent, retries, ?_⟩
  rw [tick.commands_eq, silent, List.nil_append]
  exact tick.arrival_eq_land_iff.mpr retries

/--
While no reaction overrules a target, a reaction that is no reposition leaves no target behind, so
that no landing is tried again until there is another reposition.  A landing of a safe landing tick
then follows the latest fired command, which has sent the vehicle to a place near where it is.

A target that is overruled stays unless the vehicle is there, where it may be landed on the same
tick.  Elsewhere it is landed as soon as it comes past the target, although the latest fired command
was not to go there.
-/
theorem overruled_targets_stay (configuration : Configuration) (past : List (Link × Event)) :
    let watch := ((initial configuration).run past).1
    let fired := (initial configuration).fired past
    ((∀ tick ∈ (initial configuration).ticks past, ¬ tick.Overrules) →
        ∀ link now,
          let tick := watch.tickAt link now
          let next := (watch.tick link now).1
          ¬ tick.Overrules →
            (tick.fires = true → tick.goal? = none →
                next.sentinel.waypoints.target = none
                  ∧ ∀ later, (∀ other ∈ next.ticks later, other.goal? = none) →
                      ∀ other ∈ next.ticks later, ¬ other.RetriesLanding)
              ∧ (tick.situation.configuration.mode = .safeLanding → .land ∈ tick.commands →
                  ∃ target heading,
                    (fired ++ tick.reaction).getLast? = some (.goTo target heading)
                      ∧ target.isNear tick.situation.telemetry.position = true))
      ∧ ∀ link now,
          let tick := watch.tickAt link now
          let next := (watch.tick link now).1
          tick.Overrules → ∀ target ∈ tick.before.waypoints.target,
            let arrived :=
              tick.situation.GuardsLanding
                ∧ target.isNear tick.situation.telemetry.position = true
            latestDestination? (fired ++ tick.reaction) = none
              ∧ next.sentinel.waypoints.target = (if arrived then none else some target)
              ∧ (tick.RetriesLanding → tick.commands = tick.reaction ++ [.land])
              ∧ (¬ arrived → ∀ place, target.isNear place = true →
                  let feeds := passing next.feeds.configuration place
                  ∀ answering instant,
                    let last := (next.run feeds).1.tickAt answering instant
                    next.ticks feeds = [] ∧ last.reaction = []
                      ∧ last.situation.GuardsLanding ∧ last.commands = [.land]) := by
  intro watch fired
  refine ⟨?_, ?_⟩
  · intro heeded link now tick next heeds
    refine ⟨?_, ?_⟩
    · intro fires still
      have cleared : next.sentinel.waypoints.target = none :=
        Tick.after_target_of_heeds heeds fires still
      exact ⟨cleared, fun later => not_retriesLanding_of_no_goal cleared⟩
    · intro guards lands
      obtain ⟨_, ⟨target, active, near⟩, _⟩ := Tick.retriesLanding_of_land guards lands
      obtain ⟨heading, sent⟩ := latestDestination_eq_some_iff.mp
        (Tick.latestDestination_of_target heeds (latestDestination_run_initial heeded) active)
      exact ⟨target, heading, sent, near⟩
  · intro link now tick next overrules target active arrived
    have left : next.sentinel.waypoints.target = if arrived then none else some target :=
      Tick.after_target_of_overrules overrules active
    refine ⟨?_, left, ?_, ?_⟩
    · rw [Tick.latestDestination_append_reaction, if_pos overrules.1]
      exact overrules.2.1
    · intro retries
      rw [tick.commands_eq, tick.arrival_eq_land_iff.mpr retries]
    · intro away place near feeds answering instant last
      rw [if_neg away] at left
      obtain ⟨silent, retries, lands⟩ := commands_of_passing left near answering instant
      exact ⟨rfl, silent, retries.1, lands⟩

/-- Safe landing by a reposition to a waypoint, with another try to land there. -/
def guardedByWaypoint : Configuration :=
  { Configuration.default with
      enabled := true
      mode := .safeLanding
      landing := ⟨true, .goToWaypoint, true, ⟨47, 8, 500⟩, .zero⟩ }

/-- A landing that is moved to the waypoint, and what happens behind that. -/
def divertedLanding (later : List Event) : List (Link × Event) :=
  let diverted : List Event :=
    [.feed (.telemetry (.position ⟨46, 7, 500⟩)), .feed (.telemetry (.phase .landing)),
     .feed (.landing .cannotLand), .tick 0]
  (diverted ++ later).map fun event => (.accepting, event)

/-- The vehicle reports that it is at the waypoint. -/
def atWaypoint : Event :=
  .feed (.telemetry (.position ⟨47, 8, 500⟩))

/--
A diverted vehicle is landed where it was sent, and with that its target is gone: it returns five
seconds later.  If these five seconds end on the way, the return overrules the target and leaves it.
-/
theorem landing_of_divertedLanding :
    let start := initial guardedByWaypoint
    let arriving := (start.run (divertedLanding [atWaypoint])).1.tickAt .accepting 50000
    let arrived := (start.run (divertedLanding [atWaypoint, .tick 50000])).1
    let underway := (start.run (divertedLanding [])).1
    let returning := underway.tickAt .accepting 5000000
    .land ∈ arriving.commands
      ∧ (∃ target heading,
          (start.fired (divertedLanding [atWaypoint]) ++ arriving.reaction).getLast? =
            some (.goTo target heading)
            ∧ target.isNear arriving.situation.telemetry.position = true)
      ∧ .returnToLaunch ∈ (arrived.tickAt .accepting 5000000).commands
      ∧ (arrived.tick .accepting 5000000).1.sentinel.waypoints.target = none
      ∧ returning.Overrules
      ∧ (underway.tick .accepting 5000000).1.sentinel.waypoints.target = some ⟨47, 8, 500⟩ := by
  obtain ⟨_, followed⟩ :=
    (overruled_targets_stay guardedByWaypoint (divertedLanding [atWaypoint])).1 (by decide +kernel)
      .accepting 50000 (by decide +kernel)
  obtain ⟨cleared, _⟩ :=
    ((overruled_targets_stay guardedByWaypoint (divertedLanding [atWaypoint, .tick 50000])).1
      (by decide +kernel) .accepting 5000000 (by decide +kernel)).1
      (by decide +kernel) (by decide +kernel)
  obtain ⟨_, left, _⟩ :=
    (overruled_targets_stay guardedByWaypoint (divertedLanding [])).2 .accepting 5000000
      (by decide +kernel) ⟨47, 8, 500⟩ (by decide +kernel)
  exact ⟨by decide +kernel, followed rfl (by decide +kernel), by decide +kernel, cleared,
    by decide +kernel, left.trans (if_neg (by decide +kernel))⟩

/-- A returning vehicle is landed at the waypoint that it was turned away from. -/
theorem returning_vehicle_is_landed :
    ¬ ∀ (configuration : Configuration) (events : List (Link × Event)),
      (∀ tick ∈ (initial configuration).ticks events, tick.situation.GuardsLanding) →
      ∀ past link now later, events = past ++ (link, .tick now) :: later →
        let tick := ((initial configuration).run past).1.tickAt link now
        (tick.fires = true → tick.goal? = none → tick.after.waypoints.target = none)
          ∧ (.land ∈ tick.commands →
              ∃ target heading,
                ((initial configuration).fired past ++ tick.reaction).getLast? =
                  some (.goTo target heading)) := by
  intro claim
  let past := divertedLanding [.tick 5000000, atWaypoint]
  let tick := ((initial guardedByWaypoint).run past).1.tickAt .accepting 5050000
  have lands : .land ∈ tick.commands := by decide +kernel
  have returns :
      ((initial guardedByWaypoint).fired past ++ tick.reaction).getLast? =
        some .returnToLaunch := by decide +kernel
  obtain ⟨target, heading, latest⟩ :=
    (claim guardedByWaypoint (divertedLanding [.tick 5000000, atWaypoint, .tick 5050000])
      (by decide +kernel) past .accepting 5050000 [] rfl).2 lands
  exact FlightCommand.noConfusion (Option.some.inj (returns.symm.trans latest))

end Watch

end FlightGuard
