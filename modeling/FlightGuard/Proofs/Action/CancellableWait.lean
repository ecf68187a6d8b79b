import FlightGuard.Action.Cancellation
import FlightGuard.Duration
import Mathlib.Order.Bounds.Basic

/-!
# Cancellable waits

A token waits for the flag of its signal under a time limit.  It looks at the flag when the wait
begins and whenever the signal was changed.  Where it finds the signal released and the flag down it
goes deaf, since nobody can raise the flag any more, and the wait lasts until its time is over.

The owner changes the signal in bursts, and nobody looks at the flag within a burst.  So a flag that
is raised and lowered in one burst was never up.
-/

namespace FlightGuard

/-- A wait lasts its time, rounded up to whole milliseconds. -/
theorem Duration.waitMilliseconds_le_iff (span : Duration) (milliseconds : Nat) :
    span.waitMilliseconds ≤ milliseconds ↔ span.nanoseconds ≤ milliseconds * 1000000 := by
  rw [waitMilliseconds]
  omega

namespace CancelSignal

/-! ## The flag -/

/-- Changes a signal several times in one go. -/
def applyAll (signal : CancelSignal) (burst : List Change) : CancelSignal :=
  burst.foldl apply signal

/-- The value that a change sets the flag to, if it sets it. -/
def Change.value? : Change → Option Bool
  | .set raised => some raised
  | .release => none

/-- The value set last, where an owner that has let go of the signal sets nothing. -/
def lastSet (changes : List Change) : Bool :=
  ((changes.takeWhile (· ≠ .release)).filterMap Change.value?).getLast?.getD false

theorem applyAll_append (signal : CancelSignal) (first second : List Change) :
    signal.applyAll (first ++ second) = (signal.applyAll first).applyAll second :=
  List.foldl_append

theorem apply_of_released {signal : CancelSignal} (released : signal.released = true)
    (change : Change) : signal.apply change = signal := by
  rcases signal with ⟨raised, _⟩
  subst released
  cases change <;> rfl

theorem applyAll_of_released {signal : CancelSignal} (released : signal.released = true)
    (burst : List Change) : signal.applyAll burst = signal := by
  induction burst with
  | nil => rfl
  | cons change burst induction =>
      rw [applyAll, List.foldl_cons, apply_of_released released]
      exact induction

/-- Until it is released a signal has the value set last, or the one that it had before. -/
theorem applyAll_raised {signal : CancelSignal} (held : signal.released = false)
    (changes : List Change) :
    (signal.applyAll changes).raised =
      ((changes.takeWhile (· ≠ .release)).filterMap Change.value?).getLast?.getD signal.raised := by
  induction changes generalizing signal with
  | nil => rfl
  | cons change changes induction =>
      change ((signal.apply change).applyAll changes).raised = _
      cases change with
      | release =>
          rw [applyAll_of_released rfl]
          rfl
      | set raised =>
          have changed : signal.apply (.set raised) = { signal with raised } := by
            rw [apply, held]
            rfl
          have held : ({ signal with raised } : CancelSignal).released = false := held
          rw [changed, induction held, List.takeWhile_cons_of_pos rfl, List.filterMap_cons]
          change _ = (raised :: _).getLast?.getD _
          rw [List.getLast?_cons]
          rfl

/-- A token, whenever it was handed out, reads the value set last. -/
theorem raised_eq_lastSet (earlier later : List Change) :
    ((fresh.applyAll earlier).applyAll later).raised = lastSet (earlier ++ later) := by
  rw [← applyAll_append]
  exact applyAll_raised rfl _

/-! ## Listening -/

/-- How a token listens: a deaf one has found its signal released and the flag down. -/
inductive Listener where
  | listening
  | deaf
deriving DecidableEq, Repr

/-- Looks at the flag: nothing is left to do if it is up, and else the listener goes on. -/
def Listener.look (signal : CancelSignal) : Listener → Option Listener
  | .listening =>
      if signal.raised then none
      else if signal.released then some .deaf
      else some .listening
  | .deaf => some .deaf

/--
Listens to a signal from an instant on until the flag is found up or the deadline is there, while
bursts of changes take place at their instants.  Gives whether the flag was found up, and when the
wait ended.
-/
def listen (signal : CancelSignal) (listener : Listener) (now deadline : Nat) :
    List (Nat × List Change) → Bool × Nat
  | [] =>
      match listener.look signal with
      | none => (true, now)
      | some _ => (false, deadline)
  | (instant, burst) :: course =>
      match listener.look signal with
      | none => (true, now)
      | some listener =>
          if deadline ≤ now then (false, now)
          else if deadline ≤ instant then (false, deadline)
          else (signal.applyAll burst).listen listener (max now instant) deadline course

/-- A listener is only deaf to a signal that is released with its flag down. -/
def Listener.Suits (listener : Listener) (signal : CancelSignal) : Prop :=
  listener = .deaf → signal.released = true ∧ signal.raised = false

namespace Listener

variable {listener next : Listener} {signal : CancelSignal}

/-- Also a deaf listener misses nothing. -/
theorem look_eq_none_iff (suits : listener.Suits signal) :
    listener.look signal = none ↔ signal.raised = true := by
  cases listener with
  | listening =>
      rw [look]
      cases signal.raised <;> cases signal.released <;> simp
  | deaf => simp [look, (suits rfl).2]

theorem Suits.down (suits : listener.Suits signal) (goesOn : listener.look signal = some next) :
    signal.raised = false := by
  rw [← Bool.not_eq_true, ← look_eq_none_iff suits, goesOn]
  exact Option.some_ne_none next

theorem Suits.look (suits : listener.Suits signal) (goesOn : listener.look signal = some next) :
    next.Suits signal := by
  cases listener with
  | deaf =>
      cases goesOn
      exact suits
  | listening =>
      rintro rfl
      rw [Listener.look] at goesOn
      cases raised : signal.raised with
      | true => simp [raised] at goesOn
      | false =>
          cases released : signal.released with
          | true => exact ⟨rfl, rfl⟩
          | false => simp [raised, released] at goesOn

theorem Suits.applyAll (suits : listener.Suits signal) (burst : List Change) :
    listener.Suits (signal.applyAll burst) := by
  intro deaf
  rw [applyAll_of_released (suits deaf).1]
  exact suits deaf

end Listener

/-! ## The first instant at which the flag is up -/

/-- The bursts come one after another, and none of them before an instant. -/
def InOrder (now : Nat) (course : List (Nat × List Change)) : Prop :=
  (now :: course.map Prod.fst).Pairwise (· ≤ ·)

/-- The signal behind all bursts of a course. -/
def follow (signal : CancelSignal) (course : List (Nat × List Change)) : CancelSignal :=
  signal.applyAll (course.flatMap Prod.snd)

/--
The flag is up at an instant: it is up between two bursts of a course, those before it not later and
those behind it not earlier than the instant.
-/
def IsUpAt (signal : CancelSignal) (course : List (Nat × List Change)) (instant : Nat) : Prop :=
  ∃ before after, course = before ++ after ∧ (signal.follow before).raised = true
    ∧ (∀ burst ∈ before, burst.1 ≤ instant) ∧ ∀ burst ∈ after, instant ≤ burst.1

/--
The instants of a wait at which the flag is up: its beginning if the flag is up by then, and every
instant before the deadline at which the flag is up.
-/
def upWithin (signal : CancelSignal) (now deadline : Nat) (course : List (Nat × List Change)) :
    Set Nat :=
  { instant | (instant = now ∧ signal.raised = true)
      ∨ (now ≤ instant ∧ instant < deadline ∧ signal.IsUpAt course instant) }

variable {signal : CancelSignal} {now deadline instant : Nat} {burst : List Change}
  {course : List (Nat × List Change)}

theorem InOrder.head (ordered : InOrder now ((instant, burst) :: course)) : now ≤ instant :=
  (List.pairwise_cons.mp ordered).1 instant List.mem_cons_self

theorem InOrder.tail (ordered : InOrder now ((instant, burst) :: course)) :
    InOrder instant course :=
  (List.pairwise_cons.mp ordered).2

theorem InOrder.le (ordered : InOrder now course) {entry : Nat × List Change}
    (member : entry ∈ course) : now ≤ entry.1 :=
  (List.pairwise_cons.mp ordered).1 entry.1 (List.mem_map_of_mem member)

theorem follow_cons (signal : CancelSignal) (instant : Nat) (burst : List Change)
    (course : List (Nat × List Change)) :
    signal.follow ((instant, burst) :: course) = (signal.applyAll burst).follow course :=
  applyAll_append signal burst _

/-- A flag that is down comes up only behind the next burst. -/
theorem isUpAt_cons_iff (down : signal.raised = false) {moment : Nat} :
    signal.IsUpAt ((instant, burst) :: course) moment ↔
      instant ≤ moment ∧ (signal.applyAll burst).IsUpAt course moment := by
  constructor
  · rintro ⟨before, after, split, up, past, ahead⟩
    cases before with
    | nil =>
        rw [show (signal.follow []).raised = false from down] at up
        cases up
    | cons entry before =>
        obtain ⟨rfl, rfl⟩ := List.cons.inj split
        rw [follow_cons] at up
        obtain ⟨reached, past⟩ := List.forall_mem_cons.mp past
        exact ⟨reached, before, after, rfl, up, past, ahead⟩
  · rintro ⟨reached, before, after, rfl, up, past, ahead⟩
    refine ⟨(instant, burst) :: before, after, rfl, ?_, ?_, ahead⟩
    · rw [follow_cons]
      exact up
    · exact List.forall_mem_cons.mpr ⟨reached, past⟩

theorem isUpAt_of_raised (up : signal.raised = true) (ordered : InOrder now course) :
    signal.IsUpAt course now :=
  ⟨[], course, rfl, up, nofun, fun _ member => ordered.le member⟩

theorem upWithin_nil (down : signal.raised = false) : signal.upWithin now deadline [] = ∅ := by
  rw [Set.eq_empty_iff_forall_notMem]
  rintro moment (⟨_, up⟩ | ⟨_, _, before, after, none, up, _⟩)
  · exact Bool.noConfusion (down.symm.trans up)
  · obtain ⟨rfl, rfl⟩ := List.append_eq_nil_iff.mp none.symm
    exact Bool.noConfusion (down.symm.trans up)

/-- Nothing that happens behind the deadline is heard. -/
theorem upWithin_cons_of_le (down : signal.raised = false)
    (late : deadline ≤ now ∨ deadline ≤ instant) :
    signal.upWithin now deadline ((instant, burst) :: course) = ∅ := by
  rw [Set.eq_empty_iff_forall_notMem]
  rintro moment (⟨_, up⟩ | ⟨begun, early, up⟩)
  · exact Bool.noConfusion (down.symm.trans up)
  · have reached := ((isUpAt_cons_iff down).mp up).1
    omega

theorem upWithin_cons (down : signal.raised = false)
    (ordered : InOrder now ((instant, burst) :: course)) (early : instant < deadline) :
    signal.upWithin now deadline ((instant, burst) :: course) =
      (signal.applyAll burst).upWithin instant deadline course := by
  ext moment
  constructor
  · rintro (⟨_, up⟩ | ⟨_, inTime, up⟩)
    · exact Bool.noConfusion (down.symm.trans up)
    · obtain ⟨reached, up⟩ := (isUpAt_cons_iff down).mp up
      exact Or.inr ⟨reached, inTime, up⟩
  · rintro (⟨rfl, up⟩ | ⟨reached, inTime, up⟩)
    · have again := isUpAt_of_raised up ordered.tail
      exact Or.inr ⟨ordered.head, early, (isUpAt_cons_iff down).mpr ⟨Nat.le_refl _, again⟩⟩
    · have begun : now ≤ moment := Nat.le_trans ordered.head reached
      exact Or.inr ⟨begun, inTime, (isUpAt_cons_iff down).mpr ⟨reached, up⟩⟩

theorem listen_of_raised {listener : Listener} (suits : listener.Suits signal)
    (up : signal.raised = true) :
    signal.listen listener now deadline course = (true, now)
      ∧ IsLeast (signal.upWithin now deadline course) now := by
  have heard := (Listener.look_eq_none_iff suits).mpr up
  refine ⟨?_, Or.inl ⟨rfl, up⟩, ?_⟩
  · cases course <;> simp only [listen, heard]
  · rintro moment (⟨rfl, _⟩ | ⟨begun, _, _⟩)
    · exact Nat.le_refl _
    · exact begun

/-- Listening ends at the first instant at which the flag is up, or at the deadline. -/
theorem listen_cases {listener : Listener} (suits : listener.Suits signal)
    (ordered : InOrder now course) (ahead : now ≤ deadline) :
    (∃ first, signal.listen listener now deadline course = (true, first)
        ∧ IsLeast (signal.upWithin now deadline course) first)
      ∨ (signal.listen listener now deadline course = (false, deadline)
        ∧ signal.upWithin now deadline course = ∅) := by
  induction course generalizing signal listener now with
  | nil =>
      cases heard : listener.look signal with
      | none =>
          have up := (Listener.look_eq_none_iff suits).mp heard
          exact Or.inl ⟨now, listen_of_raised suits up⟩
      | some next =>
          exact Or.inr ⟨by simp only [listen, heard], upWithin_nil (suits.down heard)⟩
  | cons entry course induction =>
      rcases entry with ⟨instant, burst⟩
      cases heard : listener.look signal with
      | none =>
          have up := (Listener.look_eq_none_iff suits).mp heard
          exact Or.inl ⟨now, listen_of_raised suits up⟩
      | some next =>
          have down := suits.down heard
          rw [listen, heard]
          dsimp only
          by_cases ended : deadline ≤ now
          · obtain rfl := Nat.le_antisymm ended ahead
            rw [if_pos ended]
            exact Or.inr ⟨rfl, upWithin_cons_of_le down (Or.inl ended)⟩
          · rw [if_neg ended]
            by_cases late : deadline ≤ instant
            · rw [if_pos late]
              exact Or.inr ⟨rfl, upWithin_cons_of_le down (Or.inr late)⟩
            · have early : instant < deadline := Nat.lt_of_not_le late
              rw [if_neg late, upWithin_cons down ordered early, Nat.max_eq_right ordered.head]
              exact induction ((suits.look heard).applyAll burst) ordered.tail (Nat.le_of_lt early)

/-! ## Waits -/

/-- To poll a wait is to look at the flag first and at the clock second. -/
theorem poll_eq_look {listener : Listener} (suits : listener.Suits signal) :
    poll signal.raised now deadline =
      match listener.look signal with
      | none => some true
      | some _ => if deadline ≤ now then some false else none := by
  rw [poll]
  cases heard : listener.look signal with
  | none => rw [if_pos ((Listener.look_eq_none_iff suits).mp heard)]
  | some next => simp only [suits.down heard, Bool.false_eq_true, if_false]

/-- A wait among changes that come one by one is a wait among bursts of one change each. -/
theorem wait_eq_listen {listener : Listener} (suits : listener.Suits signal)
    (changes : List (Nat × Change)) :
    signal.wait now deadline changes =
      signal.listen listener now deadline (changes.map fun entry => (entry.1, [entry.2])) := by
  induction changes generalizing signal listener now with
  | nil =>
      rw [wait, poll_eq_look suits, List.map_nil, listen]
      cases listener.look signal with
      | none => rfl
      | some next => by_cases ended : deadline ≤ now <;> simp [ended]
  | cons entry changes induction =>
      rcases entry with ⟨instant, change⟩
      rw [wait, poll_eq_look suits, List.map_cons, listen]
      cases heard : listener.look signal with
      | none => rfl
      | some next =>
          by_cases ended : deadline ≤ now
          · simp only [ended, if_true]
          · simp only [ended, if_false]
            by_cases late : deadline ≤ instant
            · rw [if_pos late, if_pos late]
            · rw [if_neg late, if_neg late]
              exact induction ((suits.look heard).applyAll [change])

/-- A wait goes on as if the signal had not been released. -/
theorem listen_concat_release {listener : Listener} (suits : listener.Suits signal)
    (ahead : now ≤ deadline) (course : List (Nat × List Change)) (instant : Nat) :
    signal.listen listener now deadline (course ++ [(instant, [.release])]) =
      signal.listen listener now deadline course := by
  induction course generalizing signal listener now with
  | nil =>
      rw [List.nil_append, listen, listen]
      cases heard : listener.look signal with
      | none => rfl
      | some next =>
          have down : (signal.applyAll [.release]).raised = false := suits.down heard
          have later := (suits.look heard).applyAll [.release]
          have silent : ∃ last, next.look (signal.applyAll [.release]) = some last := by
            rw [← Option.ne_none_iff_exists', Ne, Listener.look_eq_none_iff later, down]
            exact Bool.false_ne_true
          obtain ⟨last, silent⟩ := silent
          simp only [listen, silent]
          split
          next ended => rw [Nat.le_antisymm ended ahead]
          next => exact ite_self _
  | cons entry course induction =>
      rw [List.cons_append, listen, listen]
      cases heard : listener.look signal with
      | none => rfl
      | some next =>
          dsimp only
          split
          next => rfl
          next =>
            split
            next => rfl
            next ended early =>
              refine induction ((suits.look heard).applyAll entry.2) ?_
              exact Nat.max_le.mpr ⟨ahead, Nat.le_of_not_le early⟩

/--
A token that was handed out behind some changes reads the value set last, whatever was changed
since, and also when the signal was released.  A wait on it is cancelled at the first instant at
which the flag is up, at its very beginning if the flag is up by then, and it lasts its whole time
if the flag stays down until its time is over.  The release of the signal never ends it.
-/
theorem wait_ends_with_first_flag (earlier later : List Change) :
    let signal := (fresh.applyAll earlier).applyAll later
    signal.raised = lastSet (earlier ++ later)
      ∧ ∀ (now : Nat) (span : Duration) (course : List (Nat × List Change)),
          InOrder now course →
          let deadline := now + span.waitMilliseconds
          let answer := signal.listen .listening now deadline course
          (∀ milliseconds, span.waitMilliseconds ≤ milliseconds ↔
              span.nanoseconds ≤ milliseconds * 1000000)
            ∧ (∀ instant, answer = (true, instant) ↔
                IsLeast (signal.upWithin now deadline course) instant)
            ∧ (answer = (false, deadline) ↔ signal.upWithin now deadline course = ∅)
            ∧ (signal.raised = true → answer = (true, now))
            ∧ (∀ instant,
                signal.listen .listening now deadline (course ++ [(instant, [.release])]) = answer)
            ∧ ∀ changes : List (Nat × Change),
                course = changes.map (fun entry => (entry.1, [entry.2])) →
                  signal.wait now deadline changes = answer := by
  intro signal
  refine ⟨raised_eq_lastSet earlier later, ?_⟩
  intro now span course ordered deadline answer
  have suits : Listener.listening.Suits signal := Listener.noConfusion
  have ahead : now ≤ deadline := Nat.le_add_right now span.waitMilliseconds
  have cases : (∃ first, answer = (true, first) ∧ _) ∨ (answer = (false, deadline) ∧ _) :=
    listen_cases suits ordered ahead
  refine ⟨span.waitMilliseconds_le_iff, ?_, ?_, fun up => (listen_of_raised suits up).1,
    listen_concat_release suits ahead course, ?_⟩
  · intro instant
    rcases cases with ⟨first, heard, least⟩ | ⟨unheard, never⟩
    · rw [heard, Prod.mk.injEq]
      exact ⟨fun same => same.2 ▸ least, fun other => ⟨rfl, least.unique other⟩⟩
    · rw [unheard, never]
      exact ⟨nofun, fun least => absurd least.1 (Set.notMem_empty instant)⟩
  · rcases cases with ⟨first, heard, least⟩ | ⟨unheard, never⟩
    · rw [heard]
      exact ⟨nofun, fun never => absurd (never ▸ least.1) (Set.notMem_empty first)⟩
    · exact ⟨fun _ => never, fun _ => unheard⟩
  · rintro changes rfl
    exact wait_eq_listen suits changes

/--
A flag that goes up and down in one burst is missed, and the flag that goes up before the signal is
released is not: a wait of 99.5 milliseconds is cancelled behind 60 of them.
-/
theorem wait_of_missed_flag :
    let signal := (fresh.applyAll [.set true]).applyAll [.set false]
    let course : List (Nat × List Change) :=
      [(30, [.set true, .set false]), (70, [.set true, .release]), (70, [.set false])]
    InOrder 10 course
      ∧ signal.listen .listening 10 (10 + (Duration.mk 99500000).waitMilliseconds) course =
        (true, 70)
      ∧ IsLeast (signal.upWithin 10 110 course) 70 := by
  intro signal course
  have ordered : InOrder 10 course := by
    rw [InOrder]
    decide
  have heard : signal.listen .listening 10 (10 + (Duration.mk 99500000).waitMilliseconds) course =
      (true, 70) := by decide
  exact ⟨ordered, heard,
    (((wait_ends_with_first_flag [.set true] [.set false]).2 10 ⟨99500000⟩ course ordered).2.1
      70).mp heard⟩

end CancelSignal

end FlightGuard
