import FlightGuard.Proofs.Watch.Past

/-!
# Obstacles that are reacted to

In collision avoidance mode a vehicle is commanded only on account of an obstacle.  The distance
that the reaction goes by is the one that came in last, it is finite, and it came in no longer ago
than a distance counts.

The distance is tested for not being above the threshold.  That is the same as being at most the
threshold where the threshold is a number, and it holds of every distance where it is none.
-/

namespace FlightGuard

open Float.Model

/-! ## Comparing numbers -/

/-- Two numbers compare the other way round when they change places. -/
theorem compare_swap (first second : UnpackedFloat) :
    (first.compare second).map Ordering.swap = second.compare first := by
  -- Finite numbers of one sign are ordered by their powers, and then by their digits.
  have mirrored (power power' : Int) (digits digits' : Nat) :
      ((compare power power').then (compare digits digits')).swap =
        (compare power' power).then (compare digits' digits) := by
    rw [Ordering.swap_then, Int.compare_swap, Nat.compare_swap]
  rcases first with ⟨_ | _⟩ | _ | _ | ⟨_ | _, _, _, _⟩ <;>
    rcases second with ⟨_ | _⟩ | _ | _ | ⟨_ | _, _, _, _⟩ <;>
    first
    | rfl
    | exact congrArg some (mirrored _ _ _ _)
    | exact congrArg (some ∘ Ordering.swap) (mirrored _ _ _ _)

/-- Only what is no number cannot be compared. -/
theorem compare_eq_none_iff (first second : UnpackedFloat) :
    first.compare second = none ↔ first.isNaN = true ∨ second.isNaN = true := by
  rcases first with ⟨_ | _⟩ | _ | _ | ⟨_ | _, _, _, _⟩ <;>
    rcases second with ⟨_ | _⟩ | _ | _ | ⟨_ | _, _, _, _⟩ <;>
    simp [UnpackedFloat.compare, UnpackedFloat.isNaN]

theorem isNaN_eq_false_of_isFinite {number : UnpackedFloat} (finite : number.isFinite = true) :
    number.isNaN = false := by
  cases number with
  | notANumber => contradiction
  | infinity _ | zero _ | finite => rfl

theorem single_lt_iff (first second : Float32) :
    first < second ↔ first.toModel.unpack.lt second.toModel.unpack = true :=
  decide_eq_true_iff

theorem single_le_iff (first second : Float32) :
    first ≤ second ↔ first.toModel.unpack.le second.toModel.unpack = true :=
  decide_eq_true_iff

/-- What is not above a finite number is at most that number, or it is no number. -/
theorem not_lt_iff {bound number : Float32} (finite : number.isFinite = true) :
    ¬ bound < number ↔ (bound.isNaN = false → number ≤ bound) := by
  have defined : number.toModel.unpack.isNaN = false := isNaN_eq_false_of_isFinite finite
  have unordered := compare_eq_none_iff bound.toModel.unpack number.toModel.unpack
  rw [defined, Bool.false_eq_true, or_false] at unordered
  change _ ↔ (bound.toModel.unpack.isNaN = false → _)
  rw [single_lt_iff, single_le_iff, UnpackedFloat.lt, UnpackedFloat.le,
    ← compare_swap bound.toModel.unpack]
  cases compared : bound.toModel.unpack.compare number.toModel.unpack with
  | none => simp [unordered.mp compared]
  | some order =>
      have ordered : bound.toModel.unpack.isNaN = false := by
        rw [← Bool.not_eq_true, ← unordered, compared]
        exact nofun
      rw [ordered]
      cases order <;> decide

/-! ## The latest obstacle -/

namespace Feed

/--
The obstacle distance that came in last, when it came in no longer ago than a distance counts.
-/
def IsFreshObstacle (news : List Feed) (distance : Float32) : Prop :=
  ∃ earlier later, news = earlier ++ .obstacle distance :: later
    ∧ (∀ other, .obstacle other ∉ later)
    ∧ elapsed later ≤ Obstacle.Monitor.staleAfter

end Feed

namespace Feeds

theorem obstacle_update {feed : Feed} (other : ∀ distance, feed ≠ .obstacle distance)
    (feeds : Feeds) : (feeds.update feed).obstacle = feeds.obstacle := by
  cases feed with
  | obstacle distance => exact absurd rfl (other distance)
  | _ => rfl

/-- What a tick sees of an obstacle is the latest distance while that is fresh. -/
theorem obstacle_after_split (configuration : Configuration) (earlier : List Feed)
    (distance : Float32) {later : List Feed} (last : ∀ other, .obstacle other ∉ later) :
    (after configuration (earlier ++ .obstacle distance :: later)).situation.obstacle =
      if Feed.elapsed later ≤ Obstacle.Monitor.staleAfter then distance
      else Obstacle.Monitor.noDistance := by
  have held : (after configuration (earlier ++ .obstacle distance :: later)).obstacle =
      ⟨some (distance, Feed.elapsed earlier)⟩ := by
    rw [after_split, foldl_update_eq Feeds.obstacle, ← clock_after configuration]
    · rfl
    · intro feed member
      exact obstacle_update fun other same => last other (same ▸ member)
  rw [situation, held, clock_after]
  simp [Obstacle.Monitor.distance, Feed.duration]

/-- Without any news of an obstacle a tick sees no distance. -/
theorem obstacle_after_eq_noDistance (configuration : Configuration) {news : List Feed}
    (none : ∀ distance, .obstacle distance ∉ news) :
    (after configuration news).situation.obstacle = Obstacle.Monitor.noDistance := by
  have held : (after configuration news).obstacle = .empty := by
    rw [after, foldl_update_eq Feeds.obstacle]
    · rfl
    · intro feed member
      exact obstacle_update fun distance same => none distance (same ▸ member)
  rw [situation, held]
  rfl

theorem obstacle_eq_of_isFreshObstacle (configuration : Configuration) {news : List Feed}
    {distance : Float32} (fresh : Feed.IsFreshObstacle news distance) :
    (after configuration news).situation.obstacle = distance := by
  obtain ⟨earlier, later, rfl, last, age⟩ := fresh
  rw [obstacle_after_split configuration earlier distance last, if_pos age]

/-- A finite distance that a tick sees is the latest one and fresh. -/
theorem isFreshObstacle_of_isFinite {configuration : Configuration} {news : List Feed}
    (finite : (after configuration news).situation.obstacle.isFinite = true) :
    Feed.IsFreshObstacle news (after configuration news).situation.obstacle := by
  have unknown : ¬ Obstacle.Monitor.noDistance.isFinite = true := by decide
  rcases Feed.exists_latest (fun feed => ∃ distance, feed = .obstacle distance) news with
    none | ⟨earlier, _, later, rfl, ⟨distance, rfl⟩, last⟩
  · rw [obstacle_after_eq_noDistance configuration fun distance member =>
      none _ member ⟨distance, rfl⟩] at finite
    exact absurd finite unknown
  · have newest : ∀ other, .obstacle other ∉ later :=
      fun other member => last _ member ⟨other, rfl⟩
    rw [obstacle_after_split configuration earlier distance newest] at finite ⊢
    split at finite
    next age =>
      rw [if_pos age]
      exact ⟨earlier, later, rfl, newest, age⟩
    next => exact absurd finite unknown

end Feeds

/-! ## Ticks -/

namespace Tick

theorem arrival_eq_nil {tick : Tick}
    (other : tick.situation.configuration.mode ≠ .safeLanding) : tick.arrival = [] :=
  tick.arrival_cases.resolve_right fun landing =>
    other (tick.arrival_eq_land_iff.mp landing).1.2.1

theorem reaction_ne_nil_iff (tick : Tick) : tick.reaction ≠ [] ↔ tick.fires = true := by
  rw [← List.length_pos_iff, tick.reaction_length]
  cases tick.fires <;> decide

/-- In collision avoidance mode all commands are reactions to an obstacle. -/
theorem commands_ne_nil_iff {tick : Tick}
    (avoids : tick.situation.configuration.mode = .collisionAvoidance) :
    tick.commands ≠ [] ↔
      tick.rested.cooldown.triggered = false
        ∧ tick.situation.GuardsFlight
        ∧ tick.situation.telemetry.phase = .inAir
        ∧ tick.situation.obstacle.isFinite = true
        ∧ ¬ tick.situation.configuration.avoidance.threshold < tick.situation.obstacle := by
  have guards : ¬ tick.situation.GuardsLanding := by
    rintro ⟨_, landing, _⟩
    rw [avoids] at landing
    contradiction
  rw [tick.commands_eq, arrival_eq_nil (by simp [avoids]), List.append_nil,
    reaction_ne_nil_iff, fires_iff_eligible, Situation.IsEligible]
  simp only [guards, false_and, false_or]

end Tick

namespace Watch

/--
In collision avoidance mode a flight command is sent exactly if no cooldown is left, the vehicle
flies guarded, and the latest obstacle is fresh, at a finite distance and, unless the threshold is
no number, at most as far away as the threshold.
-/
theorem avoidance_command_iff (configuration : Configuration) (past : List (Link × Event))
    (link : Link) (now : Int)
    (avoids : (((initial configuration).run past).1.tickAt link
      now).situation.configuration.mode = .collisionAvoidance) :
    let tick := ((initial configuration).run past).1.tickAt link now
    let threshold := tick.situation.configuration.avoidance.threshold
    tick.commands ≠ [] ↔
      tick.rested.cooldown.triggered = false
        ∧ tick.situation.GuardsFlight
        ∧ tick.situation.telemetry.phase = .inAir
        ∧ ∃ distance, Feed.IsFreshObstacle (newsOf past) distance
            ∧ distance.isFinite = true
            ∧ (threshold.isNaN = false → distance ≤ threshold) := by
  intro tick threshold
  have seen : tick.situation.obstacle =
      (Feeds.after configuration (newsOf past)).situation.obstacle := by
    rw [← feeds_run_initial]
    rfl
  rw [Tick.commands_ne_nil_iff avoids]
  refine and_congr_right fun _ => and_congr_right fun _ => and_congr_right fun _ => ?_
  constructor
  · rintro ⟨finite, close⟩
    rw [seen] at finite close
    exact ⟨_, Feeds.isFreshObstacle_of_isFinite finite, finite, (not_lt_iff finite).mp close⟩
  · rintro ⟨distance, fresh, finite, close⟩
    rw [seen, Feeds.obstacle_eq_of_isFreshObstacle configuration fresh]
    exact ⟨finite, (not_lt_iff finite).mpr close⟩

/-- A guarded flight past two obstacles, the nearer one half a second ago. -/
def flightPastObstacle (threshold : Float32) : List (Link × Event) :=
  let guarded : Configuration :=
    { Configuration.default with
        enabled := true
        mode := .collisionAvoidance
        avoidance := ⟨true, threshold, .returnToLaunch⟩ }
  [.feed (.configuration guarded), .feed (.telemetry (.phase .inAir)), .feed (.obstacle 80),
   .feed (.time 200000), .feed (.obstacle 0.4), .feed (.time 500000)].map
    fun event => (.accepting, event)

theorem command_in_flightPastObstacle :
    let tick := ((initial .default).run (flightPastObstacle 0.5)).1.tickAt .accepting 0
    tick.situation.configuration.mode = .collisionAvoidance
      ∧ (tick.commands ≠ [] ↔
          tick.rested.cooldown.triggered = false
            ∧ tick.situation.GuardsFlight
            ∧ tick.situation.telemetry.phase = .inAir
            ∧ ∃ distance, Feed.IsFreshObstacle (newsOf (flightPastObstacle 0.5)) distance
                ∧ distance.isFinite = true
                ∧ (tick.situation.configuration.avoidance.threshold.isNaN = false →
                    distance ≤ tick.situation.configuration.avoidance.threshold))
      ∧ tick.commands = [.returnToLaunch] :=
  ⟨rfl, avoidance_command_iff .default (flightPastObstacle 0.5) .accepting 0 rfl, by decide⟩

/-- Under a threshold that is no number every obstacle at a finite distance is close. -/
theorem undefined_threshold_is_never_exceeded :
    ¬ ∀ (configuration : Configuration) (past : List (Link × Event)) (link : Link) (now : Int),
      let tick := ((initial configuration).run past).1.tickAt link now
      tick.situation.configuration.mode = .collisionAvoidance → tick.commands ≠ [] →
        tick.situation.telemetry.phase = .inAir
          ∧ ∃ distance, Feed.IsFreshObstacle (newsOf past) distance
              ∧ distance.isFinite = true
              ∧ distance ≤ tick.situation.configuration.avoidance.threshold := by
  intro claim
  obtain ⟨_, distance, fresh, _, close⟩ :=
    claim .default (flightPastObstacle (0 / 0)) .accepting 0 rfl (by decide)
  rw [← Feeds.obstacle_eq_of_isFreshObstacle .default fresh] at close
  exact absurd close (by decide)

end Watch

end FlightGuard
