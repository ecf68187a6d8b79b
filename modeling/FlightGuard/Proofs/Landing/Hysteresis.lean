import FlightGuard.Proofs.Landing.Debouncing

/-!
# The output as a function of the window

The debouncer remembers what it emitted last, but the window tells it anyway.  Where half of the
window is `canLand` the emitted value is `canLand`, because the window before was no worse, and so
on back to the latest `canLand` frame.  Where not even a tenth is, a `canLand` frame is the only one
of its kind, so that the frame before it had passed through.

The main statement gives the output for any sequence of frames from the counts in the window.
-/

namespace FlightGuard.Landing.Debouncer

/-! ## From one window to the next -/

/-- The frames of a full window that stay when one more comes in. -/
def keptFrames (raws : List Classification) : List Classification :=
  raws.rtake (capacity - 1)

theorem rtake_concat (raws : List Classification) (raw : Classification) :
    (raws ++ [raw]).rtake capacity = keptFrames raws ++ [raw] :=
  List.rtake_concat_succ raws (capacity - 1) raw

theorem length_keptFrames (raws : List Classification) :
    (keptFrames raws).length = min raws.length (capacity - 1) := by
  rw [keptFrames, List.rtake, List.length_drop]
  omega

theorem length_rtake (raws : List Classification) :
    (raws.rtake capacity).length = min raws.length capacity := by
  rw [List.rtake, List.length_drop]
  omega

/-- At most one `canLand` falls out of a window, and none gets in. -/
theorem landableCount_keptFrames (raws : List Classification) :
    landableCount (keptFrames raws) ≤ landableCount (raws.rtake capacity)
      ∧ landableCount (raws.rtake capacity) ≤ landableCount (keptFrames raws) + 1 := by
  have oldest : (raws.reverse[capacity - 1]?.toList).count .canLand ≤ 1 :=
    Nat.le_trans List.count_le_length (by cases raws.reverse[capacity - 1]? <;> simp)
  have split : landableCount (raws.rtake capacity) =
      landableCount (keptFrames raws) + (raws.reverse[capacity - 1]?.toList).count .canLand := by
    rw [landableCount, landableCount, keptFrames, List.rtake_eq_reverse_take_reverse,
      List.rtake_eq_reverse_take_reverse, List.count_reverse, List.count_reverse,
      ← List.count_append, ← List.take_add_one]
    rfl
  omega

theorem landableCount_concat_self (kept : List Classification) :
    landableCount (kept ++ [.canLand]) = landableCount kept + 1 := by
  rw [landableCount, List.count_append, List.count_singleton_self]
  rfl

theorem landableCount_concat_of_ne (kept : List Classification) {raw : Classification}
    (other : raw ≠ .canLand) : landableCount (kept ++ [raw]) = landableCount kept := by
  have none : List.count .canLand [raw] = 0 := List.count_eq_zero.mpr (by simpa using other.symm)
  rw [landableCount, List.count_append, none]
  rfl

/-- The newest frame of a window and the one before it are those of the whole sequence. -/
theorem newest_of_rtake_eq {first second : List Classification} {raw other : Classification}
    (same : (first ++ [raw]).rtake capacity = (second ++ [other]).rtake capacity) :
    raw = other ∧ first.getLast? = second.getLast? := by
  have last : ∀ raws : List Classification, (keptFrames raws).getLast? = raws.getLast? := by
    intro raws
    rw [keptFrames, List.rtake, List.getLast?_drop]
    cases raws with
    | nil => rfl
    | cons oldest raws =>
        apply if_neg
        rw [List.length_cons, capacity]
        omega
  rw [rtake_concat, rtake_concat] at same
  obtain ⟨kept, newest⟩ := List.append_inj' same rfl
  exact ⟨List.singleton_inj.mp newest, by rw [← last, kept, last]⟩

/-! ## The value emitted last -/

/-- Half of a window keeps `canLand` emitted, and it was emitted before. -/
theorem emitted_of_half {raws : List Classification} (filled : raws ≠ [])
    (half : (raws.rtake capacity).length ≤ 2 * landableCount (raws.rtake capacity)) :
    (after raws).emitted = .canLand := by
  induction raws using List.reverseRecOn with
  | nil => exact absurd rfl filled
  | append_singleton raws raw induction =>
      have shares := shares_le_iff (rtake_ne_nil filled) (length_rtake_le (raws ++ [raw]))
      rw [after_concat, push, window_after, slide_rtake]
      by_cases landable : raw = .canLand
      · have tenth := shares.1.mpr (by omega)
        rw [emit, if_pos landable, if_pos tenth]
      · -- The window before was no longer and held no fewer `canLand` frames.
        have held := shares.2.mpr half
        rw [rtake_concat, landableCount_concat_of_ne _ landable, List.length_append,
          List.length_singleton, length_keptFrames] at half
        have kept := (landableCount_keptFrames raws).1
        have length := length_rtake raws
        have bounded : landableCount (keptFrames raws) ≤ raws.length :=
          Nat.le_trans List.count_le_length
            ((length_keptFrames raws).trans_le (Nat.min_le_left _ _))
        have earlier : raws ≠ [] := by
          rw [← List.length_pos_iff]
          omega
        rw [induction earlier (by omega)]
        exact emit_eq_canLand_of_holdShare_le held

/-- Any frame but `canLand` passes through unless half of the window is against it. -/
theorem emitted_concat_of_ne (raws : List Classification) {raw : Classification}
    (other : raw ≠ .canLand) :
    let window := (raws ++ [raw]).rtake capacity
    (after (raws ++ [raw])).emitted =
      if window.length ≤ 2 * landableCount window then .canLand else raw := by
  intro window
  have filled : raws ++ [raw] ≠ [] := List.concat_ne_nil raw raws
  split
  next half => exact emitted_of_half filled half
  next minority =>
    have unheld : ¬ holdShare ≤ landableShare window :=
      fun held => minority ((holdShare_le_iff filled).mp held)
    rw [after_concat, push, window_after, slide_rtake, emit, if_neg other,
      if_neg fun held => unheld held.2]

/-- A `canLand` frame is believed from a tenth of the window on; below, the frame before counts. -/
theorem emitted_concat_canLand (raws : List Classification) :
    let window := (raws ++ [Classification.canLand]).rtake capacity
    some (after (raws ++ [Classification.canLand])).emitted =
      if window.length ≤ 10 * landableCount window then some .canLand else raws.getLast? := by
  intro window
  have filled : raws ++ [Classification.canLand] ≠ [] := List.concat_ne_nil _ raws
  have shares := shares_le_iff (rtake_ne_nil filled) (length_rtake_le _)
  rw [after_concat, push, window_after, slide_rtake, emit, if_pos rfl]
  by_cases tenth : window.length ≤ 10 * landableCount window
  · rw [if_pos tenth, if_pos (shares.1.mpr tenth)]
  · rw [if_neg tenth, if_neg fun believed => tenth (shares.1.mp believed)]
    simp only [window, rtake_concat, landableCount_concat_self, List.length_append,
      List.length_singleton, length_keptFrames, capacity] at tenth
    cases raws using List.reverseRecOn with
    | nil => simp at tenth
    | append_singleton older previous =>
        have kept : keptFrames (older ++ [previous]) =
            older.rtake (capacity - 2) ++ [previous] :=
          List.rtake_concat_succ older (capacity - 2) previous
        -- The frame is the only `canLand` of the window, so the one before is of another kind.
        have other : previous ≠ .canLand := by
          rintro rfl
          rw [kept, landableCount_concat_self] at tenth
          omega
        have alone := (landableCount_keptFrames (older ++ [previous])).2
        have length := length_rtake (older ++ [previous])
        have limit : capacity = 20 := rfl
        rw [List.getLast?_concat, emitted_concat_of_ne older other, if_neg]
        omega

/--
The window holds the latest twenty frames.  A `canLand` frame is answered with `canLand` if a tenth
of the window is `canLand`, and otherwise with the frame before it; any other frame is answered with
`canLand` if half of the window is, and otherwise with itself.  So the window alone determines the
output, and the comparisons of singles are those of the counts.
-/
theorem emitted_of_window (raws : List Classification) (raw : Classification) :
    let pushed := raws ++ [raw]
    let window := pushed.rtake 20
    let matching := window.count .canLand
    (after pushed).window = window
      ∧ window.length = min pushed.length 20
      ∧ some (after pushed).emitted =
          (if raw = .canLand then
            if window.length ≤ 10 * matching then some .canLand else raws.getLast?
          else if window.length ≤ 2 * matching then some .canLand else some raw)
      ∧ (∀ others, (after others).window = window →
          (after others).emitted = (after pushed).emitted)
      ∧ (enterShare ≤ landableShare window ↔ window.length ≤ 10 * matching)
      ∧ (holdShare ≤ landableShare window ↔ window.length ≤ 2 * matching) := by
  have closed : ∀ raws raw,
      let window := (raws ++ [raw]).rtake capacity
      some (after (raws ++ [raw])).emitted =
        if raw = .canLand then
          if window.length ≤ 10 * landableCount window then some .canLand else raws.getLast?
        else if window.length ≤ 2 * landableCount window then some .canLand else some raw := by
    intro raws raw window
    split
    next landable =>
      subst landable
      exact emitted_concat_canLand raws
    next other => rw [← apply_ite some, ← emitted_concat_of_ne raws other]
  intro pushed window matching
  have filled : pushed ≠ [] := List.concat_ne_nil raw raws
  have shares := shares_le_iff (rtake_ne_nil filled) (length_rtake_le pushed)
  refine ⟨window_after pushed, length_rtake pushed, closed raws raw, ?_, shares.1, shares.2⟩
  intro others same
  rw [window_after] at same
  cases others using List.reverseRecOn with
  | nil => exact absurd same.symm (rtake_ne_nil filled)
  | append_singleton older newest =>
      obtain ⟨rfl, before⟩ := newest_of_rtake_eq same
      apply Option.some.inj
      rw [closed older newest, closed raws newest, same, before]
      rfl

end FlightGuard.Landing.Debouncer
