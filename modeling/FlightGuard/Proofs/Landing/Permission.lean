import FlightGuard.Proofs.Landing.Debouncing
import FlightGuard.Proofs.Watch.Past

/-!
# How old a permission to land may be

The monitor looks at the age of the latest frame only.  A `canLand` that it reports needs a
frame that still counts, with nothing said about the site since, but the frames that speak for
the permission may be any of the latest twenty, however old.

So a permission goes back to a `canLand` that still counts only where most of those twenty frames
do.  Where they do not, the very same instants admit frames that permit to land on the word of
old ones alone (`Feed.outdated`).
-/

namespace FlightGuard

open Landing

/-- What a frame says about the landing site, and its age in microseconds. -/
structure Landing.Frame where
  raw : Classification
  age : Nat
deriving DecidableEq

/-- Whether a frame still counts. -/
def Landing.Frame.isFresh (frame : Frame) : Bool :=
  frame.age ≤ Monitor.staleAfter

/-! ## Frames -/

namespace Feed

/-- The raw frames in a sequence of news, the oldest first. -/
def frames : List Feed → List Frame
  | [] => []
  | .landing raw :: later => ⟨raw, elapsed later⟩ :: frames later
  | _ :: later => frames later

/-- The frames that a debouncer goes by. -/
def latestFrames (news : List Feed) : List Frame :=
  (frames news).rtake Debouncer.capacity

/-- Some `canLand` came in so recently that it still counts. -/
def HasFreshPermission (news : List Feed) : Prop :=
  ∃ frame ∈ frames news, frame.raw = .canLand ∧ frame.isFresh = true

instance (news : List Feed) : Decidable (HasFreshPermission news) :=
  inferInstanceAs (Decidable (∃ frame ∈ frames news, _ ∧ _))

/-- Most of the frames that a debouncer goes by still count. -/
def MostlyFresh (news : List Feed) : Prop :=
  (latestFrames news).length < 2 * (latestFrames news).countP Frame.isFresh

/-- Whether a piece of news is about the landing site. -/
def isAboutSite : Feed → Bool
  | .landing _ => true
  | .noLandingData => true
  | _ => false

/-- The latest word about the landing site is a frame, and it still counts. -/
def IsHeard (news : List Feed) : Prop :=
  ∃ earlier raw later, news = earlier ++ .landing raw :: later
    ∧ (∀ feed ∈ later, ¬ feed.isAboutSite = true)
    ∧ elapsed later ≤ Monitor.staleAfter

theorem frames_append (earlier later : List Feed) :
    frames (earlier ++ later) =
      (frames earlier).map (fun frame => ⟨frame.raw, frame.age + elapsed later⟩)
        ++ frames later := by
  induction earlier with
  | nil => rfl
  | cons first earlier induction =>
      cases first with
      | landing raw => simp [frames, induction]
      | _ => exact induction

theorem frames_eq_nil {news : List Feed} (other : ∀ feed ∈ news, ¬ feed.isAboutSite = true) :
    frames news = [] := by
  induction news with
  | nil => rfl
  | cons first news induction =>
      have rest := induction fun feed member => other feed (List.mem_cons_of_mem _ member)
      cases first with
      | landing raw => exact absurd rfl (other _ (List.mem_cons_self ..))
      | _ => exact rest

/-- Frames grow younger in their order. -/
theorem frames_pairwise (news : List Feed) :
    (frames news).Pairwise (fun first second => second.age ≤ first.age)
      ∧ ∀ frame ∈ frames news, frame.age ≤ elapsed news := by
  induction news with
  | nil => simp [frames]
  | cons first news induction =>
      obtain ⟨sorted, bounded⟩ := induction
      have older : ∀ frame ∈ frames news, frame.age ≤ elapsed (first :: news) :=
        fun frame member => Nat.le_trans (bounded frame member) (Nat.le_add_left _ _)
      cases first with
      | landing raw =>
          refine ⟨List.pairwise_cons.mpr ⟨bounded, sorted⟩, fun frame member => ?_⟩
          rcases List.mem_cons.mp member with rfl | member
          · exact Nat.le_add_left _ _
          · exact older frame member
      | _ => exact ⟨sorted, older⟩

end Feed

/-! ## What the monitor makes of them -/

namespace Feeds

/-- The monitor reports that the vehicle can land. -/
def PermitsLanding (feeds : Feeds) : Prop :=
  feeds.landing.current feeds.clock = .canLand

instance (feeds : Feeds) : Decidable feeds.PermitsLanding :=
  inferInstanceAs (Decidable (_ = _))

theorem debouncer_foldl_update (feeds : Feeds) (news : List Feed) :
    (news.foldl update feeds).landing.debouncer =
      ((Feed.frames news).map Frame.raw).foldl Debouncer.push feeds.landing.debouncer := by
  induction news generalizing feeds with
  | nil => rfl
  | cons first news induction =>
      have step : (feeds.update first).landing.debouncer =
          ((Feed.frames [first]).map Frame.raw).foldl Debouncer.push
            feeds.landing.debouncer := by
        cases first with
        | noLandingData =>
            rw [update, Monitor.markNoData]
            split <;> rfl
        | _ => rfl
      have split : Feed.frames (first :: news) =
          (Feed.frames [first]).map (fun frame =>
            ⟨frame.raw, frame.age + Feed.elapsed news⟩) ++ Feed.frames news :=
        Feed.frames_append [first] news
      rw [List.foldl_cons, induction, step, split]
      simp [Function.comp_def]

/-- The debouncer has been pushed the raw frames of the news. -/
theorem debouncer_after (configuration : Configuration) (news : List Feed) :
    (after configuration news).landing.debouncer =
      .after ((Feed.frames news).map Frame.raw) :=
  debouncer_foldl_update _ news

theorem landing_update {feed : Feed} (other : ¬ feed.isAboutSite = true) (feeds : Feeds) :
    (feeds.update feed).landing = feeds.landing := by
  cases feed with
  | landing raw => exact absurd rfl other
  | noLandingData => exact absurd rfl other
  | _ => rfl

theorem landing_after_split (configuration : Configuration) (earlier : List Feed) (latest : Feed)
    {later : List Feed} (other : ∀ feed ∈ later, ¬ feed.isAboutSite = true) :
    (after configuration (earlier ++ latest :: later)).landing =
      ((after configuration earlier).update latest).landing := by
  rw [after_split, foldl_update_eq Feeds.landing]
  exact fun feed member => landing_update (other feed member)

/-- What the monitor reports behind a frame, with nothing said about the site since. -/
theorem current_after_split (configuration : Configuration) (earlier : List Feed)
    (raw : Classification) {later : List Feed}
    (other : ∀ feed ∈ later, ¬ feed.isAboutSite = true) :
    let feeds := after configuration (earlier ++ .landing raw :: later)
    let emitted := feeds.landing.debouncer.emitted
    feeds.landing.current feeds.clock =
      if Feed.elapsed later ≤ Monitor.staleAfter ∨ emitted = .closeToGround then emitted
      else .unknown := by
  intro feeds emitted
  have held : feeds.landing =
      (after configuration earlier).landing.push (Feed.elapsed earlier) raw := by
    rw [← clock_after configuration]
    exact landing_after_split configuration earlier _ other
  have age : feeds.clock - Feed.elapsed earlier = Feed.elapsed later := by
    rw [clock_after]
    simp [Feed.duration]
  have stabilized : feeds.landing.stabilized = emitted := by
    rw [held]
    simp only [emitted, held, Monitor.push]
  have fresh : feeds.landing.isFresh feeds.clock = true ↔
      Feed.elapsed later ≤ Monitor.staleAfter := by
    rw [held, Monitor.isFresh, Monitor.push, Option.any_some, age, decide_eq_true_eq]
  rw [Monitor.current, stabilized]
  simp only [fresh]

/-- After a frame without data nothing permits to land before the next frame. -/
theorem not_permitsLanding_after_split (configuration : Configuration) (earlier : List Feed)
    {later : List Feed} (other : ∀ feed ∈ later, ¬ feed.isAboutSite = true) :
    ¬ (after configuration (earlier ++ .noLandingData :: later)).PermitsLanding := by
  have held := landing_after_split configuration earlier .noLandingData other
  have decayed :
      ((after configuration earlier).update .noLandingData).landing.stabilized ≠ .canLand := by
    rw [update, Monitor.markNoData]
    split
    next close =>
      rw [close]
      exact nofun
    next => exact nofun
  rw [PermitsLanding, held, Monitor.current]
  split
  · exact decayed
  · exact nofun

/-- The monitor permits to land when a frame is heard and the debouncer permits it. -/
theorem permitsLanding_iff (configuration : Configuration) (news : List Feed) :
    (after configuration news).PermitsLanding ↔
      Feed.IsHeard news
        ∧ (after configuration news).landing.debouncer.emitted = .canLand := by
  constructor
  · intro permitted
    rcases Feed.exists_latest (fun feed => feed.isAboutSite = true) news with
      none | ⟨earlier, latest, later, rfl, site, other⟩
    · have held : (after configuration news).landing = .empty :=
        foldl_update_eq Feeds.landing (fun feed member => landing_update (none feed member)) _
      rw [PermitsLanding, held] at permitted
      contradiction
    · cases latest with
      | landing raw =>
          rw [PermitsLanding, current_after_split configuration earlier raw other] at permitted
          split at permitted
          next counts =>
            have fresh : Feed.elapsed later ≤ Monitor.staleAfter := by
              rcases counts with fresh | close
              · exact fresh
              · rw [permitted] at close
                contradiction
            exact ⟨⟨earlier, raw, later, rfl, other, fresh⟩, permitted⟩
          next => contradiction
      | noLandingData =>
          exact absurd permitted (not_permitsLanding_after_split configuration earlier other)
      | _ => contradiction
  · rintro ⟨⟨earlier, raw, later, rfl, other, fresh⟩, permitted⟩
    rw [PermitsLanding, current_after_split configuration earlier raw other,
      if_pos (Or.inl fresh)]
    exact permitted

end Feeds

/-! ## Permissions that still count -/

namespace Feed

theorem frames_of_isHeard {news : List Feed} (heard : IsHeard news) :
    ∃ older frame, frames news = older ++ [frame] ∧ frame.isFresh = true := by
  obtain ⟨earlier, raw, later, rfl, other, fresh⟩ := heard
  have split := frames_append earlier (.landing raw :: later)
  rw [frames, frames_eq_nil other] at split
  exact ⟨_, _, split, decide_eq_true fresh⟩

/-- The window of the debouncer holds the raw values of the latest frames. -/
theorem map_raw_latestFrames (news : List Feed) :
    (latestFrames news).map Frame.raw =
      ((frames news).map Frame.raw).rtake Debouncer.capacity := by
  simp [latestFrames, List.rtake]

theorem landableCount_map_raw (frames : List Frame) :
    Debouncer.landableCount (frames.map Frame.raw) =
      frames.countP fun frame => frame.raw = .canLand := by
  rw [Debouncer.landableCount, List.count, List.countP_map]
  rfl

/-- Two kinds that share out more than there is have something in common. -/
theorem exists_mem_of_length_lt {frames : List Frame} {first second : Frame → Bool}
    (many : frames.length < frames.countP first + frames.countP second) :
    ∃ frame ∈ frames, first frame = true ∧ second frame = true := by
  by_contra apart
  push Not at apart
  have fewer : frames.countP first ≤ frames.countP fun frame => !second frame :=
    List.countP_mono_left fun frame member isFirst => by simpa using apart frame member isFirst
  have all := List.length_eq_countP_add_countP second (l := frames)
  simp only [Bool.not_eq_true, Bool.decide_eq_false] at all
  omega

end Feed

namespace Feeds

/-- A permission goes back to a `canLand` that still counts, or to half of the latest frames. -/
theorem fresh_or_half_of_canLand {configuration : Configuration} {news : List Feed}
    (heard : Feed.IsHeard news)
    (emitted : (after configuration news).landing.debouncer.emitted = .canLand) :
    Feed.HasFreshPermission news
      ∨ (Feed.latestFrames news).length ≤
          2 * (Feed.latestFrames news).countP fun frame => frame.raw = .canLand := by
  obtain ⟨older, frame, split, fresh⟩ := Feed.frames_of_isHeard heard
  rw [debouncer_after, split, List.map_append, List.map_singleton] at emitted
  rcases Debouncer.raw_or_half_of_emitted emitted with landable | half
  · refine Or.inl ⟨frame, ?_, landable, fresh⟩
    rw [split]
    exact List.mem_append_right _ (List.mem_singleton_self _)
  · right
    have window := Feed.map_raw_latestFrames news
    rw [split, List.map_append, List.map_singleton] at window
    simp only [← window, List.length_map, Feed.landableCount_map_raw] at half
    exact half

end Feeds

/-! ## News at the same instants -/

namespace Feed

/-- A piece of news without what a frame says. -/
def blank : Feed → Feed
  | .landing _ => .landing .unknown
  | feed => feed

/-- The same news, except for what the frames say. -/
def SameInstants (first second : List Feed) : Prop :=
  first.map blank = second.map blank

@[simp]
theorem elapsed_map_blank (news : List Feed) : elapsed (news.map blank) = elapsed news := by
  induction news with
  | nil => rfl
  | cons first news induction => cases first <;> simp [blank, duration, induction]

theorem frames_map_blank (news : List Feed) :
    frames (news.map blank) =
      (frames news).map fun frame => ⟨.unknown, frame.age⟩ := by
  induction news with
  | nil => rfl
  | cons first news induction => cases first <;> simp [blank, frames, induction]

theorem isAboutSite_blank (feed : Feed) : feed.blank.isAboutSite = feed.isAboutSite := by
  cases feed <;> rfl

theorem isHeard_map_blank_iff (news : List Feed) : IsHeard (news.map blank) ↔ IsHeard news := by
  constructor
  · rintro ⟨_, raw, _, split, other, fresh⟩
    obtain ⟨earlier, rest, rfl, rfl, tail⟩ := List.map_eq_append_iff.mp split
    obtain ⟨frame, later, rfl, same, rfl⟩ := List.map_eq_cons_iff.mp tail
    cases frame with
    | landing value =>
        refine ⟨earlier, value, later, rfl, ?_, by simpa using fresh⟩
        simpa [isAboutSite_blank] using other
    | _ => simp [blank] at same
  · rintro ⟨earlier, raw, later, rfl, other, fresh⟩
    refine ⟨earlier.map blank, .unknown, later.map blank, by simp [blank], ?_, by simpa⟩
    simpa [isAboutSite_blank] using other

theorem mostlyFresh_map_blank_iff (news : List Feed) :
    MostlyFresh (news.map blank) ↔ MostlyFresh news := by
  have latest : latestFrames (news.map blank) =
      (latestFrames news).map fun frame => ⟨.unknown, frame.age⟩ := by
    simp [latestFrames, frames_map_blank, List.rtake]
  rw [MostlyFresh, latest, List.length_map, List.countP_map]
  rfl

theorem SameInstants.isHeard_iff {first second : List Feed} (same : SameInstants first second) :
    IsHeard first ↔ IsHeard second := by
  rw [← isHeard_map_blank_iff, same, isHeard_map_blank_iff]

theorem SameInstants.mostlyFresh_iff {first second : List Feed}
    (same : SameInstants first second) : MostlyFresh first ↔ MostlyFresh second := by
  rw [← mostlyFresh_map_blank_iff, same, mostlyFresh_map_blank_iff]

theorem SameInstants.elapsed_eq {first second : List Feed} (same : SameInstants first second) :
    elapsed first = elapsed second := by
  rw [← elapsed_map_blank, same, elapsed_map_blank]

/--
The frames at the instants of the news that are the worst for a permission: those that no longer
count speak for it, and those that count speak against it.
-/
def outdated : List Feed → List Feed
  | [] => []
  | .landing _ :: later =>
      .landing (if elapsed later ≤ Monitor.staleAfter then .cannotLand else .canLand)
        :: outdated later
  | feed :: later => feed :: outdated later

theorem sameInstants_outdated (news : List Feed) : SameInstants (outdated news) news := by
  rw [SameInstants]
  induction news with
  | nil => rfl
  | cons first news induction => cases first <;> simp [outdated, blank, induction]

theorem frames_outdated (news : List Feed) :
    frames (outdated news) =
      (frames news).map fun frame =>
        ⟨if frame.isFresh then .cannotLand else .canLand, frame.age⟩ := by
  induction news with
  | nil => rfl
  | cons first news induction =>
      have same := (sameInstants_outdated news).elapsed_eq
      cases first <;> simp [outdated, frames, Frame.isFresh, induction, same]

theorem not_hasFreshPermission_outdated (news : List Feed) :
    ¬ HasFreshPermission (outdated news) := by
  rintro ⟨frame, member, landable, fresh⟩
  rw [frames_outdated, List.mem_map] at member
  obtain ⟨original, _, rfl⟩ := member
  have counts : original.isFresh = true := fresh
  simp [counts] at landable

/-- The frames that no longer count come before those that do. -/
theorem filter_append_filter {frames : List Frame}
    (sorted : frames.Pairwise fun first second => second.age ≤ first.age) :
    frames.filter (fun frame => !frame.isFresh) ++ frames.filter Frame.isFresh =
      frames := by
  induction frames with
  | nil => rfl
  | cons first frames induction =>
      obtain ⟨younger, sorted⟩ := List.pairwise_cons.mp sorted
      by_cases fresh : first.isFresh = true
      · have all : ∀ frame ∈ frames, frame.isFresh = true := fun frame member =>
          decide_eq_true (Nat.le_trans (younger frame member) (of_decide_eq_true fresh))
        have none : frames.filter (fun frame => !frame.isFresh) = [] := by
          simpa [List.filter_eq_nil_iff] using all
        simp [fresh, none, List.filter_eq_self.mpr all]
      · simp [fresh, induction sorted]

theorem map_raw_outdated (news : List Feed) :
    (frames (outdated news)).map Frame.raw =
      .replicate ((frames news).countP fun frame => !frame.isFresh) .canLand
        ++ .replicate ((frames news).countP Frame.isFresh) .cannotLand := by
  have judged (fresh : Bool) (kind : Frame → Bool)
      (same : ∀ frame : Frame, kind frame = true → frame.isFresh = fresh) :
      ((frames news).filter kind).map (fun frame =>
          if frame.isFresh then Classification.cannotLand else .canLand) =
        .replicate ((frames news).countP kind) (if fresh then .cannotLand else .canLand) := by
    rw [List.countP_eq_length_filter, List.eq_replicate_iff]
    refine ⟨List.length_map _, fun raw member => ?_⟩
    obtain ⟨frame, found, rfl⟩ := List.mem_map.mp member
    rw [same frame (List.mem_filter.mp found).2]
  rw [frames_outdated, List.map_map]
  nth_rewrite 1 [← filter_append_filter (frames_pairwise news).1]
  rw [List.map_append]
  exact congrArg₂ _ (judged false _ fun frame => by simp) (judged true _ fun _ => id)

/-- How many frames count when those that do are no majority of the latest ones. -/
theorem countP_isFresh_le {news : List Feed} (minority : ¬ MostlyFresh news) :
    2 * (frames news).countP Frame.isFresh ≤ Debouncer.capacity
      ∧ (frames news).countP Frame.isFresh ≤
          (frames news).countP fun frame => !frame.isFresh := by
  rw [List.countP_eq_length_filter, List.countP_eq_length_filter]
  have split := filter_append_filter (frames_pairwise news).1
  generalize stale_eq : (frames news).filter (fun frame => !frame.isFresh) = stale at split ⊢
  generalize fresh_eq : (frames news).filter Frame.isFresh = fresh at split ⊢
  have none : ∀ count, (stale.drop count).countP Frame.isFresh = 0 := by
    intro count
    rw [List.countP_eq_zero]
    intro frame member
    have found := List.mem_of_mem_drop member
    rw [← stale_eq, List.mem_filter] at found
    simpa using found.2
  have all : ∀ count, (fresh.drop count).countP Frame.isFresh = (fresh.drop count).length := by
    intro count
    rw [List.countP_eq_length]
    intro frame member
    have found := List.mem_of_mem_drop member
    rw [← fresh_eq, List.mem_filter] at found
    exact found.2
  rw [MostlyFresh, latestFrames, List.rtake, ← split, List.drop_append, List.countP_append,
    none, all] at minority
  simp only [List.length_append, List.length_drop] at minority
  -- A window that had lost frames that count would hold no others, and be mostly fresh.
  have some : 0 < Debouncer.capacity := by decide
  omega

end Feed

/-! ## Which instants keep permissions fresh -/

namespace Feeds

/-- Heard but not mostly fresh, the outdated frames permit to land. -/
theorem permitsLanding_outdated (configuration : Configuration) {news : List Feed}
    (heard : Feed.IsHeard news) (minority : ¬ Feed.MostlyFresh news) :
    (after configuration (Feed.outdated news)).PermitsLanding := by
  have some : 0 < (Feed.frames news).countP Frame.isFresh := by
    obtain ⟨older, frame, split, fresh⟩ := Feed.frames_of_isHeard heard
    rw [split, List.countP_append]
    simp [fresh]
  obtain ⟨few, fewer⟩ := Feed.countP_isFresh_le minority
  rw [permitsLanding_iff, debouncer_after, Feed.map_raw_outdated]
  constructor
  · exact (Feed.sameInstants_outdated news).isHeard_iff.mpr heard
  · exact Debouncer.emitted_replicate_append_replicate _ (Nat.lt_of_lt_of_le some fewer) few fewer

/-- Where most of the latest frames count, half of them cannot speak for old ones alone. -/
theorem hasFreshPermission_of_mostlyFresh {configuration : Configuration} {news : List Feed}
    (permitted : (after configuration news).PermitsLanding) (majority : Feed.MostlyFresh news) :
    Feed.HasFreshPermission news := by
  obtain ⟨heard, emitted⟩ := (permitsLanding_iff configuration news).mp permitted
  rcases fresh_or_half_of_canLand heard emitted with fresh | half
  · exact fresh
  · have many : (Feed.latestFrames news).length <
        ((Feed.latestFrames news).countP fun frame => frame.raw = .canLand)
          + (Feed.latestFrames news).countP Frame.isFresh := by
      rw [Feed.MostlyFresh] at majority
      omega
    obtain ⟨frame, member, landable, fresh⟩ := Feed.exists_mem_of_length_lt many
    exact ⟨frame, List.mem_of_mem_drop member, of_decide_eq_true landable, fresh⟩

/--
A permission to land means that the latest word about the site is a frame that still counts, and
that a `canLand` still counts or half of the latest frames are `canLand` of any age.  At given
instants every permission goes back to a `canLand` that still counts exactly if most of the latest
frames count, once such a word is there at all.
-/
theorem permission_fresh_iff (configuration : Configuration) (news : List Feed) :
    ((after configuration news).PermitsLanding →
        Feed.IsHeard news
          ∧ (Feed.HasFreshPermission news
            ∨ (Feed.latestFrames news).length ≤
                2 * (Feed.latestFrames news).countP fun frame => frame.raw = .canLand))
      ∧ ((Feed.IsHeard news → Feed.MostlyFresh news) ↔
          ∀ other, Feed.SameInstants other news →
            (after configuration other).PermitsLanding → Feed.HasFreshPermission other) := by
  refine ⟨?_, ?_, ?_⟩
  · intro permitted
    obtain ⟨heard, emitted⟩ := (permitsLanding_iff configuration news).mp permitted
    exact ⟨heard, fresh_or_half_of_canLand heard emitted⟩
  · intro majority other same permitted
    have heard := ((permitsLanding_iff configuration other).mp permitted).1
    apply hasFreshPermission_of_mostlyFresh permitted
    exact same.mostlyFresh_iff.mpr (majority (same.isHeard_iff.mp heard))
  · intro kept heard
    by_contra minority
    have permitted := permitsLanding_outdated configuration heard minority
    exact Feed.not_hasFreshPermission_outdated news
      (kept _ (Feed.sameInstants_outdated news) permitted)

/-- Two frames with a gap of ten seconds between them. -/
def frameBehindGap : List Feed :=
  [.landing .canLand, .time 10000000, .landing .cannotLand]

/-- The frame from before the gap permits to land, against the one behind it. -/
theorem permission_outlives_gap :
    ¬ ∀ (configuration : Configuration) (news : List Feed),
      (after configuration news).PermitsLanding → Feed.HasFreshPermission news := by
  intro claim
  exact absurd (claim .default frameBehindGap (by decide)) (by decide)

end Feeds

end FlightGuard
