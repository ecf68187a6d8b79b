import FlightGuard.Proofs.Landing.Permission

/-!
# What the monitor reports

A frame is answered from the debouncer, which no frame without data touches.  So such frames may be
put in or left out anywhere without a change to any answer.

What is reported at an instant goes back to the latest answer.  It stands for as long as the frame
counts and no frame without data follows it, and is unknown afterwards, except that the vehicle
stays close to the ground.
-/

namespace FlightGuard

open Landing

/-- Whether a piece of news is a frame with data. -/
def Feed.isFrame : Feed → Bool
  | .landing _ => true
  | _ => false

namespace Feeds

/-- What the frames in a sequence of news are answered with, in their order. -/
def answers (feeds : Feeds) : List Feed → List Classification
  | [] => []
  | .landing raw :: later =>
      (feeds.landing.push feeds.clock raw).stabilized
        :: (feeds.update (.landing raw)).answers later
  | feed :: later => (feeds.update feed).answers later

/-! ## Frames without data -/

theorem debouncer_update_noLandingData (feeds : Feeds) :
    (feeds.update .noLandingData).landing.debouncer = feeds.landing.debouncer := by
  rw [update, Monitor.markNoData]
  split <;> rfl

/-- Answers depend on the debouncer alone, so frames without data make no difference to them. -/
theorem answers_filter (news : List Feed) {feeds other : Feeds}
    (same : feeds.landing.debouncer = other.landing.debouncer) :
    feeds.answers (news.filter (· ≠ .noLandingData)) = other.answers news := by
  induction news generalizing feeds other with
  | nil => rfl
  | cons first news induction =>
      cases first with
      | noLandingData =>
          exact induction (same.trans (debouncer_update_noLandingData other).symm)
      | landing raw =>
          have pushed : (feeds.landing.debouncer.push raw) = other.landing.debouncer.push raw := by
            rw [same]
          have rest : (feeds.update (.landing raw)).answers
              (news.filter (· ≠ .noLandingData)) = (other.update (.landing raw)).answers news :=
            induction pushed
          have head : (feeds.landing.push feeds.clock raw).stabilized =
              (other.landing.push other.clock raw).stabilized :=
            congrArg Debouncer.emitted pushed
          exact congrArg₂ List.cons head rest
      | telemetry _ | configuration _ | obstacle _ | time _ => exact induction same

theorem answers_append (feeds : Feeds) (earlier later : List Feed) :
    feeds.answers (earlier ++ later) =
      feeds.answers earlier ++ (earlier.foldl update feeds).answers later := by
  induction earlier generalizing feeds with
  | nil => rfl
  | cons first earlier induction =>
      cases first with
      | landing raw => exact congrArg (List.cons _) (induction _)
      | _ => exact induction _

theorem answers_eq_nil {news : List Feed} (silent : ∀ feed ∈ news, feed.isFrame = false)
    (feeds : Feeds) : feeds.answers news = [] := by
  induction news generalizing feeds with
  | nil => rfl
  | cons first news induction =>
      have rest := induction fun feed member => silent feed (List.mem_cons_of_mem _ member)
      cases first with
      | landing raw => cases silent _ List.mem_cons_self
      | _ => exact rest _

/-! ## Behind the latest frame -/

theorem markNoData_markNoData (monitor : Monitor) :
    monitor.markNoData.markNoData = monitor.markNoData := by
  by_cases close : monitor.stabilized = .closeToGround
  · rw [Monitor.markNoData, Monitor.markNoData, if_pos close, if_pos close]
  · simp only [Monitor.markNoData, if_neg close]
    rfl

/-- Without frames the monitor changes by one frame without data at most. -/
theorem landing_foldl_update {news : List Feed} (silent : ∀ feed ∈ news, feed.isFrame = false)
    (feeds : Feeds) :
    (news.foldl update feeds).landing =
      if .noLandingData ∈ news then feeds.landing.markNoData else feeds.landing := by
  induction news generalizing feeds with
  | nil => rfl
  | cons first news induction =>
      have rest := induction fun feed member => silent feed (List.mem_cons_of_mem _ member)
      rw [List.foldl_cons, rest]
      cases first with
      | landing raw => cases silent _ List.mem_cons_self
      | noLandingData =>
          change (if _ then feeds.landing.markNoData.markNoData else feeds.landing.markNoData) = _
          rw [markNoData_markNoData, ite_self, if_pos List.mem_cons_self]
      | telemetry _ | configuration _ | obstacle _ | time _ =>
          simp only [List.mem_cons, reduceCtorEq, false_or]
          rfl

/-- A reading at an age, with or without a frame without data since. -/
theorem current_of_reading (debouncer : Debouncer) (value : Classification) (pushed age : Nat)
    (marked : Prop) [Decidable marked] :
    let monitor : Monitor := ⟨debouncer, value, some pushed⟩
    (if marked then monitor.markNoData else monitor).current (pushed + age) =
      if value = .closeToGround then .closeToGround
      else if ¬ marked ∧ age ≤ Monitor.staleAfter then value else .unknown := by
  intro monitor
  have fresh : monitor.isFresh (pushed + age) = decide (age ≤ Monitor.staleAfter) := by
    simp only [monitor, Monitor.isFresh, Option.any_some, Nat.add_sub_cancel_left]
  have marked_eq : monitor.markNoData =
      if value = .closeToGround then monitor else { monitor with stabilized := .unknown } :=
    rfl
  by_cases close : value = .closeToGround
  · have reported : monitor.current (pushed + age) = .closeToGround := by
      rw [Monitor.current, if_pos (Or.inr close)]
      exact close
    rw [marked_eq, if_pos close, ite_self, if_pos close, reported]
  · rw [marked_eq, if_neg close, if_neg close]
    by_cases silenced : marked
    · rw [if_pos silenced, if_neg fun counts => counts.1 silenced, Monitor.current, ite_self]
    · rw [if_neg silenced, Monitor.current, fresh]
      simp [silenced, close, monitor]

/--
Frames without data change no answer, wherever they come in.  Nothing is known before the first
frame.  Behind the latest one the vehicle is close to the ground if that was the answer; any other
answer stands while no frame without data has come in and half a second is not over.
-/
theorem current_of_latest_answer (configuration : Configuration) (news : List Feed) :
    let feeds := after configuration news
    let answers := (initial configuration).answers news
    (∀ other : List Feed, other.filter (· ≠ .noLandingData) = news.filter (· ≠ .noLandingData) →
        (initial configuration).answers other = answers)
      ∧ ((∀ feed ∈ news, feed.isFrame = false) → feeds.landing.current feeds.clock = .unknown)
      ∧ ∀ earlier raw later, news = earlier ++ .landing raw :: later →
          (∀ feed ∈ later, feed.isFrame = false) →
          ∃ value, answers.getLast? = some value
            ∧ feeds.landing.current feeds.clock =
                if value = .closeToGround then .closeToGround
                else if .noLandingData ∉ later ∧ Feed.elapsed later ≤ 500000 then value
                else .unknown := by
  intro feeds answers
  refine ⟨?_, ?_, ?_⟩
  · intro other same
    rw [← answers_filter other rfl, same, answers_filter news rfl]
  · intro silent
    have held : feeds.landing = .empty :=
      (landing_foldl_update silent (initial configuration)).trans (ite_self _)
    rw [held]
    rfl
  · intro earlier raw later split silent
    subst split
    let before := after configuration earlier
    let reading := before.landing.push before.clock raw
    have last : answers = (initial configuration).answers earlier ++ [reading.stabilized] := by
      have rest := answers_eq_nil silent (before.update (.landing raw))
      simp only [answers, answers_append]
      exact congrArg _ (congrArg _ rest)
    have behind : feeds = later.foldl update (before.update (.landing raw)) := after_split ..
    have held : feeds.landing =
        if .noLandingData ∈ later then reading.markNoData else reading := by
      rw [behind]
      exact landing_foldl_update silent _
    have clock : feeds.clock = before.clock + Feed.elapsed later := by
      rw [behind]
      exact clock_foldl_update _ _
    refine ⟨reading.stabilized, by rw [last, List.getLast?_concat], ?_⟩
    rw [held, clock]
    exact current_of_reading _ _ _ _ _

end Feeds

end FlightGuard
