import FlightGuard.Landing.Monitor
import Mathlib.Data.List.DropRight
import Mathlib.Tactic.Common

/-!
# What the debouncer emits

The window of a debouncer holds the latest twenty raw values, and the two shares that it compares
are quotients of singles.  For windows of that size the quotients are precise enough: the
comparisons are those of the counts themselves.

An emitted `canLand` needs a `canLand` frame or half of the window, and half of the window is enough
to keep it, whatever the frame.
-/

namespace FlightGuard.Landing.Debouncer

/-- The debouncer when a sequence of raw values has been pushed. -/
def after (raws : List Classification) : Debouncer :=
  raws.foldl push empty

@[simp]
theorem after_concat (raws : List Classification) (raw : Classification) :
    after (raws ++ [raw]) = (after raws).push raw := by
  simp [after]

/-! ## The window -/

theorem slide_rtake (raws : List Classification) (raw : Classification) :
    slide (raws.rtake capacity) raw = (raws ++ [raw]).rtake capacity := by
  have last : ((raws ++ [raw]).length - capacity) ≤ raws.length := by
    rw [List.length_append, List.length_singleton, capacity]
    omega
  rw [List.rtake, List.rtake, List.drop_append_of_le_length last, slide]
  congr 1
  by_cases full : capacity ≤ raws.length
  · rw [if_pos (by rw [List.length_drop]; omega), List.tail_drop]
    congr 1
    simp only [List.length_append, List.length_singleton]
    omega
  · rw [if_neg (by rw [List.length_drop]; omega)]
    congr 1
    simp only [List.length_append, List.length_singleton]
    omega

/-- The window holds the latest raw values. -/
theorem window_after (raws : List Classification) :
    (after raws).window = raws.rtake capacity := by
  induction raws using List.reverseRecOn with
  | nil => rfl
  | append_singleton raws raw induction =>
      rw [after_concat, ← slide_rtake, ← induction]
      rfl

/-! ## The shares -/

/-- The quotients of singles by which the shares of short windows are compared. -/
theorem shares_of_counts :
    ∀ length ∈ List.range (capacity + 1), ∀ count ∈ List.range (length + 1), 0 < length →
      (enterShare ≤ count.toFloat32 / length.toFloat32 ↔ length ≤ 10 * count)
        ∧ (holdShare ≤ count.toFloat32 / length.toFloat32 ↔ length ≤ 2 * count) := by
  decide +kernel

/-- The shares of a window are reached when a tenth and when half of it is `canLand`. -/
theorem shares_le_iff {window : List Classification} (filled : window ≠ [])
    (bounded : window.length ≤ capacity) :
    (enterShare ≤ landableShare window ↔ window.length ≤ 10 * landableCount window)
      ∧ (holdShare ≤ landableShare window ↔ window.length ≤ 2 * landableCount window) := by
  have count : landableCount window ≤ window.length := List.count_le_length
  rw [landableShare, if_neg (by simpa using filled)]
  apply shares_of_counts
  · exact List.mem_range.mpr (Nat.lt_succ_of_le bounded)
  · exact List.mem_range.mpr (Nat.lt_succ_of_le count)
  · exact List.length_pos_iff.mpr filled

theorem length_rtake_le (raws : List Classification) :
    (raws.rtake capacity).length ≤ capacity := by
  rw [List.rtake, List.length_drop]
  omega

theorem rtake_ne_nil {raws : List Classification} (filled : raws ≠ []) :
    raws.rtake capacity ≠ [] := by
  have pushed := List.length_pos_iff.mpr filled
  rw [← List.length_pos_iff, List.rtake, List.length_drop, capacity]
  omega

/-- The window reaches the share at which it holds a `canLand` when half of it is `canLand`. -/
theorem holdShare_le_iff {raws : List Classification} (filled : raws ≠ []) :
    let window := raws.rtake capacity
    holdShare ≤ landableShare window ↔ window.length ≤ 2 * landableCount window :=
  (shares_le_iff (rtake_ne_nil filled) (length_rtake_le raws)).2

/-! ## The output -/

theorem emit_eq_canLand_of_holdShare_le {raw : Classification} {share : Float32}
    (half : holdShare ≤ share) : emit .canLand raw share = .canLand := by
  rw [emit]
  simp [half]

/-- A `canLand` is emitted for a `canLand` frame, or for the sake of half of the window. -/
theorem raw_or_half_of_emitted {raws : List Classification} {raw : Classification}
    (emitted : (after (raws ++ [raw])).emitted = .canLand) :
    raw = .canLand
      ∨ let window := (raws ++ [raw]).rtake capacity
        window.length ≤ 2 * landableCount window := by
  by_cases landable : raw = .canLand
  · exact Or.inl landable
  · rw [after_concat, push, window_after, slide_rtake, emit, if_neg landable] at emitted
    split at emitted
    next held => exact Or.inr ((holdShare_le_iff (by simp)).mp held.2)
    next => exact Or.inl emitted

/-- A `canLand` frame keeps an emitted `canLand`, whatever the window. -/
theorem emit_canLand_canLand (share : Float32) : emit .canLand .canLand share = .canLand := by
  rw [emit, if_pos rfl, ite_self]

theorem emitted_replicate_canLand (count : Nat) :
    (after (.replicate (count + 1) .canLand)).emitted = .canLand := by
  induction count with
  | zero => decide
  | succ count induction =>
      rw [List.replicate_succ', after_concat, push, induction]
      exact emit_canLand_canLand _

/-- Behind `canLand` frames a few others leave half of the window. -/
theorem length_le_landableCount {landable other : Nat} (raw : Classification)
    (few : 2 * other ≤ capacity) (fewer : other ≤ landable) :
    let window :=
      (List.replicate landable Classification.canLand ++ .replicate other raw).rtake capacity
    window.length ≤ 2 * landableCount window := by
  intro window
  let surplus := landable + other - capacity
  have shape : window = .replicate (landable - surplus) .canLand ++ .replicate other raw := by
    have kept : surplus - landable = 0 := by omega
    simp only [window, List.rtake, List.drop_append, List.drop_replicate, List.length_append,
      List.length_replicate]
    rw [kept, Nat.sub_zero]
  calc window.length
      = landable - surplus + other := by simp [shape]
    _ ≤ 2 * (landable - surplus) := by omega
    _ ≤ 2 * landableCount window := by
        rw [landableCount, shape, List.count_append, List.count_replicate_self]
        omega

/-- Up to ten other frames, and not more than there were `canLand` frames, leave the output. -/
theorem emitted_replicate_append_replicate {landable other : Nat} (raw : Classification)
    (some : 0 < landable) (few : 2 * other ≤ capacity) (fewer : other ≤ landable) :
    (after (.replicate landable .canLand ++ .replicate other raw)).emitted = .canLand := by
  -- Each further frame finds `canLand` emitted, which the half of the window then holds.
  induction other with
  | zero =>
      obtain ⟨count, rfl⟩ := Nat.exists_eq_succ_of_ne_zero (Nat.ne_of_gt some)
      rw [List.replicate_zero, List.append_nil]
      exact emitted_replicate_canLand count
  | succ other induction =>
      have before := induction (by omega) (by omega)
      have half := length_le_landableCount raw few fewer
      rw [List.replicate_succ', ← List.append_assoc] at half ⊢
      rw [after_concat, push, before, window_after, slide_rtake]
      apply emit_eq_canLand_of_holdShare_le
      exact (holdShare_le_iff (by simp)).mpr half

end FlightGuard.Landing.Debouncer
