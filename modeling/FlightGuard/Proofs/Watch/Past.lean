import FlightGuard.Proofs.Watch.Ticks
import Mathlib

/-!
# The past of a watch

What a tick sees goes back to the news of the feeds before it.  The news of a run are taken out of
its events here, together with the time that passes among them, and every tick of a run is the
tick of the watch that its past has left behind.

Statements about the latest news of one kind split the past where these news came in
(`exists_latest`): nothing of that kind follows, and the time that passes in the rest is the age.
-/

namespace FlightGuard

/-! ## News -/

namespace Feed

/-- The time that a piece of news lets pass, in microseconds. -/
def duration : Feed → Nat
  | .time microseconds => microseconds
  | _ => 0

/-- The time that passes in a sequence of news, in microseconds. -/
def elapsed (news : List Feed) : Nat :=
  (news.map duration).sum

@[simp]
theorem elapsed_nil : elapsed [] = 0 :=
  rfl

@[simp]
theorem elapsed_cons (first : Feed) (news : List Feed) :
    elapsed (first :: news) = first.duration + elapsed news :=
  rfl

@[simp]
theorem elapsed_append (earlier later : List Feed) :
    elapsed (earlier ++ later) = elapsed earlier + elapsed later := by
  simp [elapsed]

/-- Where there are news of a kind, there are latest ones. -/
theorem exists_latest (kind : Feed → Prop) (news : List Feed) :
    (∀ feed ∈ news, ¬ kind feed)
      ∨ ∃ earlier latest later, news = earlier ++ latest :: later
          ∧ kind latest ∧ ∀ feed ∈ later, ¬ kind feed := by
  induction news with
  | nil => exact Or.inl (by simp)
  | cons first news induction =>
      rcases induction with none | ⟨earlier, latest, later, rfl, isKind, rest⟩
      · by_cases isKind : kind first
        · exact Or.inr ⟨[], first, news, rfl, isKind, none⟩
        · refine Or.inl fun feed member => ?_
          rcases List.mem_cons.mp member with rfl | member
          · exact isKind
          · exact none feed member
      · exact Or.inr ⟨first :: earlier, latest, later, rfl, isKind, rest⟩

end Feed

namespace Feeds

/-- The feeds when a sequence of news has come in. -/
def after (configuration : Configuration) (news : List Feed) : Feeds :=
  news.foldl update (initial configuration)

theorem after_split (configuration : Configuration) (earlier : List Feed) (latest : Feed)
    (later : List Feed) :
    after configuration (earlier ++ latest :: later) =
      later.foldl update ((after configuration earlier).update latest) := by
  simp [after]

theorem clock_foldl_update (feeds : Feeds) (news : List Feed) :
    (news.foldl update feeds).clock = feeds.clock + Feed.elapsed news := by
  induction news generalizing feeds with
  | nil => rfl
  | cons first news induction =>
      have step : (feeds.update first).clock = feeds.clock + first.duration := by
        cases first <;> rfl
      rw [List.foldl_cons, induction, step, Feed.elapsed_cons, Nat.add_assoc]

/-- The clock of the feeds counts the time that the news let pass. -/
theorem clock_after (configuration : Configuration) (news : List Feed) :
    (after configuration news).clock = Feed.elapsed news := by
  rw [after, clock_foldl_update]
  exact Nat.zero_add _

/-- News that leave a part of the feeds alone one by one leave it alone together. -/
theorem foldl_update_eq {Part : Type} (part : Feeds → Part) {news : List Feed}
    (still : ∀ feed ∈ news, ∀ feeds : Feeds, part (feeds.update feed) = part feeds)
    (feeds : Feeds) : part (news.foldl update feeds) = part feeds := by
  induction news generalizing feeds with
  | nil => rfl
  | cons first news induction =>
      rw [List.foldl_cons, induction fun feed member => still feed (List.mem_cons_of_mem _ member)]
      exact still first (List.mem_cons_self ..) feeds

end Feeds

/-! ## Runs -/

namespace Watch

/-- The news in an event, if it is no tick. -/
def Event.news? : Event → Option Feed
  | .feed news => some news
  | .tick _ => none

/-- The news among the events of a run. -/
def newsOf (events : List (Link × Event)) : List Feed :=
  events.filterMap fun event => event.2.news?

theorem feeds_run (watch : Watch) (events : List (Link × Event)) :
    (watch.run events).1.feeds = (newsOf events).foldl Feeds.update watch.feeds := by
  induction events generalizing watch with
  | nil => rfl
  | cons first events induction =>
      rcases first with ⟨link, news | now⟩
      · exact induction (watch.update news)
      · exact induction (watch.tick link now).1

/-- The feeds of a run are those that its news alone would have left. -/
theorem feeds_run_initial (configuration : Configuration) (events : List (Link × Event)) :
    ((initial configuration).run events).1.feeds = .after configuration (newsOf events) :=
  feeds_run _ events

/-- The tick that a watch makes at an instant of the wall clock. -/
def tickAt (watch : Watch) (link : Link) (now : Int) : Tick :=
  ⟨link, now, watch.feeds.situation, watch.sentinel⟩

theorem run_feed (watch : Watch) (link : Link) (news : Feed) (events : List (Link × Event)) :
    watch.run ((link, .feed news) :: events) = (watch.update news).run events :=
  rfl

theorem run_tick (watch : Watch) (link : Link) (now : Int) (events : List (Link × Event)) :
    watch.run ((link, .tick now) :: events) =
      let next := watch.tick link now
      let last := next.1.run events
      (last.1, next.2 ++ last.2) :=
  rfl

theorem ticks_tick (watch : Watch) (link : Link) (now : Int) (events : List (Link × Event)) :
    watch.ticks ((link, .tick now) :: events) =
      watch.tickAt link now :: (watch.tick link now).1.ticks events :=
  rfl

theorem sentinel_tick (watch : Watch) (link : Link) (now : Int) :
    (watch.tick link now).1.sentinel = (watch.tickAt link now).after :=
  rfl

theorem ticks_append (watch : Watch) (first second : List (Link × Event)) :
    watch.ticks (first ++ second) = watch.ticks first ++ (watch.run first).1.ticks second := by
  induction first generalizing watch with
  | nil => rfl
  | cons event first induction =>
      rcases event with ⟨link, news | now⟩
      · exact induction (watch.update news)
      · exact congrArg (List.cons _) (induction (watch.tick link now).1)

/-- The ticks of a run are those of the watches that its past has left behind. -/
theorem mem_ticks_iff {watch : Watch} {events : List (Link × Event)} {tick : Tick} :
    tick ∈ watch.ticks events ↔
      ∃ past link now later, events = past ++ (link, .tick now) :: later
        ∧ tick = (watch.run past).1.tickAt link now := by
  constructor
  · intro member
    induction events generalizing watch with
    | nil => simp [ticks] at member
    | cons first events induction =>
        rcases first with ⟨link, news | now⟩
        · obtain ⟨past, other, now, later, rfl, found⟩ := induction member
          exact ⟨(link, .feed news) :: past, other, now, later, rfl, found⟩
        · rcases List.mem_cons.mp member with found | member
          · exact ⟨[], link, now, events, rfl, found⟩
          · obtain ⟨past, other, instant, later, rfl, found⟩ := induction member
            exact ⟨(link, .tick now) :: past, other, instant, later, rfl, found⟩
  · rintro ⟨past, link, now, later, rfl, rfl⟩
    rw [ticks_append]
    exact List.mem_append_right _ (List.mem_cons_self ..)

end Watch

end FlightGuard
