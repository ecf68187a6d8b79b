import FlightGuard.Proofs.Watch.Ticks

/-!
# The cooldown as a greedy selection

The ticks that fire are those that a greedy reader of the run would choose: the first eligible
tick, then the first eligible one that comes at least a cooldown later, and so on.  Ticks that
are not eligible play no part, although each of them may end a cooldown.

The reader remembers one instant, before which nothing is chosen again.  It is compared with the
cooldown of the sentinel by `Cooldown.Tracks`, which every tick preserves.
-/

namespace FlightGuard

/-- Chooses each eligible tick that does not come before `ready`, the end of the latest choice. -/
def greedySelection (ready : Option Int) : List Tick → List Tick
  | [] => []
  | tick :: later =>
      if tick.situation.IsEligible ∧ ∀ instant ∈ ready, instant ≤ tick.now then
        tick :: greedySelection (some (tick.now + Cooldown.length)) later
      else greedySelection ready later

/-! ## The cooldown and the reader -/

namespace Cooldown

theorem expire_lastTrigger (cooldown : Cooldown) (now : Int) :
    (cooldown.expire now).lastTrigger = cooldown.lastTrigger := by
  rw [expire]
  split <;> rfl

theorem expire_triggered (cooldown : Cooldown) (now : Int) :
    (cooldown.expire now).triggered = (cooldown.triggered && !cooldown.isOver now) := by
  rw [expire]
  split
  next elapsed => simp [elapsed]
  next running => simp [running]

/--
The reader waits for the end of the latest firing, and a cooldown that no longer blocks was over
before any of the instants that are still to come.
-/
structure Tracks (cooldown : Cooldown) (ready : Option Int) (instants : List Int) : Prop where
  ready_eq : ready = cooldown.lastTrigger.map (· + length)
  marked : cooldown.triggered = true → cooldown.lastTrigger.isSome = true
  elapsed : cooldown.triggered = false →
    ∀ instant ∈ ready, ∀ later ∈ instants, instant ≤ later

theorem Tracks.idle (instants : List Int) : Tracks idle none instants :=
  ⟨rfl, by simp [Cooldown.idle], by simp⟩

theorem Tracks.mark {now : Int} (instants : List Int) :
    Tracks ⟨true, some now⟩ (some (now + length)) instants :=
  ⟨rfl, fun _ => rfl, by simp⟩

/-- At the next instant the cooldown is over exactly if the reader may choose again. -/
theorem Tracks.free_iff {cooldown : Cooldown} {ready : Option Int} {now : Int}
    {instants : List Int} (tracks : Tracks cooldown ready (now :: instants)) :
    (cooldown.expire now).triggered = false ↔ ∀ instant ∈ ready, instant ≤ now := by
  rw [expire_triggered]
  rcases cooldown with ⟨triggered, lastTrigger⟩
  cases triggered with
  | false =>
      have elapsed := tracks.elapsed rfl
      simp only [Bool.false_and, true_iff]
      intro instant member
      exact elapsed instant member now (List.mem_cons_self ..)
  | true =>
      rcases Option.isSome_iff_exists.mp (tracks.marked rfl) with ⟨last, rfl⟩
      have ends : ready = some (last + length) := tracks.ready_eq
      subst ends
      simp only [isOver, Option.any_some, Bool.true_and, Bool.not_eq_false', decide_eq_true_eq,
        Option.mem_def, Option.some.injEq, forall_eq']
      omega

/-- A tick that does not fire keeps the reader waiting for the same instant. -/
theorem Tracks.expire {cooldown : Cooldown} {ready : Option Int} {now : Int}
    {instants : List Int} (tracks : Tracks cooldown ready (now :: instants))
    (later : ∀ instant ∈ instants, now ≤ instant) :
    Tracks (cooldown.expire now) ready instants where
  ready_eq := by
    rw [expire_lastTrigger]
    exact tracks.ready_eq
  marked := by
    intro blocked
    rw [expire_triggered, Bool.and_eq_true] at blocked
    rw [expire_lastTrigger]
    exact tracks.marked blocked.1
  elapsed := by
    intro free instant member other otherMember
    exact Int.le_trans (tracks.free_iff.mp free instant member) (later other otherMember)

end Cooldown

/-! ## Runs -/

namespace Watch

/-- From a tracked cooldown on, the ticks that fire are those that the reader chooses. -/
theorem filter_fires_ticks (watch : Watch) (events : List (Link × Event)) (ready : Option Int)
    (ordered : ((watch.ticks events).map Tick.now).Pairwise (· ≤ ·))
    (tracks : watch.sentinel.cooldown.Tracks ready ((watch.ticks events).map Tick.now)) :
    (watch.ticks events).filter Tick.fires = greedySelection ready (watch.ticks events) := by
  induction events generalizing watch ready with
  | nil => rfl
  | cons first events induction =>
      rcases first with ⟨link, news | now⟩
      -- A feed touches neither the cooldown nor the instant that the reader waits for.
      · exact induction (watch.update news) ready ordered tracks
      · let tick : Tick := ⟨link, now, watch.feeds.situation, watch.sentinel⟩
        change List.Pairwise _ (now :: ((watch.tick link now).1.ticks events).map Tick.now)
          at ordered
        change Cooldown.Tracks _ _ (now :: ((watch.tick link now).1.ticks events).map Tick.now)
          at tracks
        change (tick :: (watch.tick link now).1.ticks events).filter Tick.fires =
          greedySelection ready (tick :: (watch.tick link now).1.ticks events)
        rcases List.pairwise_cons.mp ordered with ⟨later, ordered⟩
        have after : (watch.tick link now).1.sentinel.cooldown = tick.after.cooldown := rfl
        have chosen :
            tick.fires = true ↔
              tick.situation.IsEligible ∧ ∀ instant ∈ ready, instant ≤ tick.now := by
          rw [tick.fires_iff_eligible, and_comm]
          exact and_congr_right fun _ => tracks.free_iff
        rw [greedySelection]
        by_cases fired : tick.fires = true
        · rw [List.filter_cons_of_pos fired, if_pos (chosen.mp fired)]
          rw [induction (watch.tick link now).1 (some (tick.now + Cooldown.length)) ordered]
          rw [after, Tick.after_cooldown_of_fires fired]
          exact .mark _
        · rw [List.filter_cons_of_neg fired, if_neg (fired ∘ chosen.mpr)]
          apply induction (watch.tick link now).1 ready ordered
          rw [after, Tick.after_cooldown_of_not_fires fired]
          exact tracks.expire later

/-- The cooldown remembers the latest firing of a run, or else what it remembered before. -/
theorem lastTrigger_run (watch : Watch) (events : List (Link × Event)) :
    (watch.run events).1.sentinel.cooldown.lastTrigger =
      (((watch.ticks events).filter Tick.fires).getLast?.map Tick.now).or
        watch.sentinel.cooldown.lastTrigger := by
  induction events generalizing watch with
  | nil => rfl
  | cons first events induction =>
      rcases first with ⟨link, news | now⟩
      · exact induction (watch.update news)
      · let tick : Tick := ⟨link, now, watch.feeds.situation, watch.sentinel⟩
        have after : (watch.tick link now).1.sentinel.cooldown = tick.after.cooldown := rfl
        change ((watch.tick link now).1.run events).1.sentinel.cooldown.lastTrigger =
          (((tick :: (watch.tick link now).1.ticks events).filter Tick.fires).getLast?.map
            Tick.now).or tick.before.cooldown.lastTrigger
        rw [induction, after]
        by_cases fired : tick.fires = true
        · rw [List.filter_cons_of_pos fired, Tick.after_cooldown_of_fires fired,
            List.getLast?_cons]
          cases (((watch.tick link now).1.ticks events).filter Tick.fires).getLast? <;> rfl
        · rw [List.filter_cons_of_neg fired, Tick.after_cooldown_of_not_fires fired,
            Cooldown.expire_lastTrigger]

/--
The ticks that fire in a run with an orderly wall clock are exactly the greedy selection.  The
cooldown remembers the latest of them, and every other tick commands nothing but the landing that
follows an arrival.
-/
theorem firings_are_greedy (configuration : Configuration) (events : List (Link × Event))
    (ordered : (((initial configuration).ticks events).map Tick.now).Pairwise (· ≤ ·)) :
    ((initial configuration).ticks events).filter Tick.fires =
        greedySelection none ((initial configuration).ticks events)
      ∧ ((initial configuration).run events).1.sentinel.cooldown.lastTrigger =
          (((initial configuration).ticks events).filter Tick.fires).getLast?.map Tick.now
      ∧ ∀ tick ∈ (initial configuration).ticks events, tick.fires = false →
          ∀ command ∈ tick.commands, command = .land ∧ tick.RetriesLanding := by
  refine ⟨?_, ?_, ?_⟩
  · exact filter_fires_ticks _ events none ordered (.idle _)
  · rw [lastTrigger_run]
    exact Option.or_none
  · intro tick _ quiet command member
    have silent : tick.reaction = [] := by
      rw [← List.length_eq_zero_iff, tick.reaction_length, quiet]
      rfl
    rw [tick.commands_eq, silent, List.nil_append] at member
    rcases tick.arrival_cases with none | landing
    · simp [none] at member
    · rw [landing, List.mem_singleton] at member
      exact ⟨member, tick.arrival_eq_land_iff.mp landing⟩

/-- A landing over an unknown site, with protection switched off and on again in the cooldown. -/
def switchedLanding : List (Link × Event) :=
  let guarded : Configuration :=
    { Configuration.default with
        enabled := true
        mode := .safeLanding
        landing := { LandingPolicy.default with enabled := true } }
  [.feed (.telemetry (.phase .landing)), .feed (.configuration guarded), .tick 0,
   .feed (.configuration .default), .tick 3000000,
   .feed (.configuration guarded), .tick 4999999, .tick 5000000, .tick 5050000].map
    fun event => (.accepting, event)

theorem firings_of_switchedLanding :
    (((initial .default).ticks switchedLanding).map Tick.now).Pairwise (· ≤ ·)
      ∧ (((initial .default).ticks switchedLanding).filter Tick.fires =
            greedySelection none ((initial .default).ticks switchedLanding)
          ∧ ((initial .default).run switchedLanding).1.sentinel.cooldown.lastTrigger =
              (((initial .default).ticks switchedLanding).filter Tick.fires).getLast?.map Tick.now
          ∧ ∀ tick ∈ (initial .default).ticks switchedLanding, tick.fires = false →
              ∀ command ∈ tick.commands, command = .land ∧ tick.RetriesLanding)
      ∧ (greedySelection none ((initial .default).ticks switchedLanding)).map Tick.now =
          [0, 5000000] :=
  ⟨by decide, firings_are_greedy .default switchedLanding (by decide), by decide⟩

end Watch

end FlightGuard
