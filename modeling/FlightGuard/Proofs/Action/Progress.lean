import FlightGuard.Action.Basic
import FlightGuard.Proofs.Number.Formats

/-!
# The progress of an action that is done

The progress in percent is computed in singles, from the number of stages that are done and the
number of all stages.  A number with more digits than a single is rounded, but it stays finite and
positive.  When all stages are done it is divided by itself, which gives one exactly, so the
progress is a hundred percent however many stages there are.
-/

namespace FlightGuard

open Float.Model UnpackedFloat

theorem exponentBias_binary32_pos : 0 < Format.binary32.exponentBias := by decide

/-- A single that is finite and above zero. -/
def IsPositive (number : Float32) : Prop :=
  ∃ (significand : Nat) (exponent : Int) (positive : 0 < significand),
    number.toModel.unpack = .finite .positive significand exponent positive

theorem IsInForm.isPositive {significand : Nat} {exponent : Int}
    (inForm : IsInForm Format.binary32 significand exponent) :
    IsPositive (.ofModel (.pack (.finite .positive significand exponent inForm.positive))) :=
  ⟨significand, exponent, inForm.positive, inForm.unpack_pack exponentBias_binary32_pos .positive⟩

/-! ## Whole numbers as singles -/

theorem isInForm_of_short {number : Nat} (positive : 0 < number) (short : number < 2 ^ 23) :
    IsInForm Format.binary32 (number * 2 ^ (23 - number.log2)) (0 - (23 - number.log2 : Nat)) := by
  have digits := (log2_lt_iff positive).mpr short
  refine isInForm_of_log2_eq (Nat.mul_pos positive (Nat.two_pow_pos _)) ?_ ?_ ?_
  · rw [log2_mul_two_pow positive]
    exact Nat.add_sub_of_le (Nat.le_of_lt digits)
  · change (-149 : Int) ≤ _
    omega
  · change _ + (23 : Int) ≤ 127
    omega

theorem toFloat32_of_short {number : Nat} (positive : 0 < number) (short : number < 2 ^ 23) :
    number.toUInt64.toFloat32 =
      .ofModel (.pack (.finite .positive (number * 2 ^ (23 - number.log2))
        (0 - (23 - number.log2 : Nat)) (isInForm_of_short positive short).positive)) := by
  have fits : number.toUInt64.toNat = number :=
    UInt64.toNat_ofNat_of_lt' (Nat.lt_trans short (by decide))
  have above : compare (number : Int) 0 = .gt := Int.compare_eq_gt.mpr (by omega)
  rw [UInt64.toFloat32, Float32.Model.ofUInt64, UnpackedFloat.ofUInt64, fits,
    UnpackedFloat.ofNat, UnpackedFloat.ofInt, UnpackedFloat.normalize, above]
  exact congrArg (fun value => Float32.ofModel (.pack value))
    ((isInForm_of_short positive short).round_of_higher positive .positive)

/-- A number of the format stays the same in a multiplication by one. -/
theorem IsInForm.isPositive_mul_one {significand : Nat} {exponent : Int}
    (inForm : IsInForm Format.binary32 significand exponent) :
    IsPositive (.ofModel (.pack (.finite .positive significand exponent inForm.positive)) * 1) := by
  have unpacked : (Float32.Model.pack (.finite .positive significand exponent
      inForm.positive)).unpack = .finite .positive significand exponent inForm.positive :=
    inForm.unpack_pack exponentBias_binary32_pos .positive
  have one : (1 : Float32).toModel.unpack = .finite .positive (2 ^ 23) (-23) (by decide) := by
    rfl
  have product : UnpackedFloat.mul Format.binary32
      (.finite .positive significand exponent inForm.positive)
      (.finite .positive (2 ^ 23) (-23) (by decide)) =
        .finite .positive significand exponent inForm.positive :=
    inForm.roundWithAccuracy .positive 23
  change IsPositive (.ofModel (.pack (UnpackedFloat.mul Format.binary32
    (Float32.Model.pack _).unpack (1 : Float32).toModel.unpack)))
  rw [unpacked, one, product]
  exact inForm.isPositive

/-- A number with few digits is a single. -/
theorem isPositive_of_short {number : Nat} (positive : 0 < number) (short : number < 2 ^ 23) :
    IsPositive number.toFloat32 := by
  have single : number.toFloat32 = number.toUInt64.toFloat32 * 1 := by
    change Float32.ofScientific number false 0 = _
    rw [Float32.ofScientific, dif_pos ⟨short, by decide⟩]
    rfl
  rw [single, toFloat32_of_short positive short]
  exact (isInForm_of_short positive short).isPositive_mul_one

/-- A number with more digits than a single is rounded to one. -/
theorem isPositive_of_long {number : Nat} (long : 2 ^ 23 ≤ number) (bounded : number < 2 ^ 64) :
    IsPositive number.toFloat32 := by
  have positive : 0 < number := Nat.lt_of_lt_of_le (Nat.two_pow_pos _) long
  have digits := (log2_lt_iff positive).mpr bounded
  have grown := log2_mul_two_pow positive 24
  have many : Format.binary32.mantissaBitsWithoutImplicit ≤ (number * 2 ^ 24).log2 := by
    rw [grown]
    change 23 ≤ _
    omega
  have above : Format.binary32.minExponent ≤ -24 := by decide
  have below : -24 + ((number * 2 ^ 24).log2 : Int) < Format.binary32.exponentBias := by
    rw [grown]
    change _ < (127 : Int)
    omega
  obtain ⟨significand, exponent, inForm, rounded⟩ :=
    exists_roundWithAccuracy (Nat.mul_pos positive (Nat.two_pow_pos _)) many above below .positive
  have single : number.toFloat32 =
      .ofModel (.pack (UnpackedFloat.ofScientific Format.binary32 number 0)) := by
    change Float32.ofScientific number false 0 = _
    rw [Float32.ofScientific, dif_neg fun both => Nat.not_lt_of_le long both.1]
    rfl
  have scientific : UnpackedFloat.ofScientific Format.binary32 number 0 =
      .finite .positive significand exponent inForm.positive := by
    have inRange : ¬ (0 : Int) < -(2 ^ 8 + number.log2) := by omega
    rw [UnpackedFloat.ofScientific, dif_neg (Nat.ne_of_gt positive), if_neg (by decide),
      if_neg inRange, if_pos (by decide), UnpackedFloat.mul, Nat.shiftLeft_eq, Int.toNat_zero,
      pow_zero, Nat.mul_one, Int.add_zero]
    exact rounded
  rw [single, scientific]
  exact inForm.isPositive

theorem isPositive_toFloat32 {number : Nat} (positive : 0 < number) (bounded : number < 2 ^ 64) :
    IsPositive number.toFloat32 := by
  rcases Nat.lt_or_ge number (2 ^ 23) with short | long
  · exact isPositive_of_short positive short
  · exact isPositive_of_long long bounded

/-! ## A number divided by itself -/

/-- The quotient of a significand and itself is the same for all of them. -/
theorem divCore_self {significand : Nat} (positive : 0 < significand) (exponent : Int) :
    UnpackedFloat.divCore Format.binary32 significand exponent significand exponent =
      (2 ^ 24, -24, .exact) := by
  have least : min ((0 : Int)) (Format.binary32.targetExponent 0) = -24 := by decide
  have shift : ((0 : Int) - -24).toNat = 24 := by decide
  rw [UnpackedFloat.divCore, Int.sub_self, Int.sub_self, least, shift, Nat.shiftLeft_eq,
    Nat.mul_div_cancel_left _ positive, Nat.mul_mod_right]
  rfl

theorem IsPositive.div_self {number : Float32} (isPositive : IsPositive number) :
    number / number = 1 := by
  obtain ⟨significand, exponent, positive, unpacked⟩ := isPositive
  change Float32.ofModel (.pack (UnpackedFloat.div Format.binary32 number.toModel.unpack
    number.toModel.unpack)) = 1
  rw [unpacked, UnpackedFloat.div, divCore_self positive]
  rfl

/-- After all stages the progress is a hundred percent. -/
theorem Execution.stageProgress_self {total : Nat} (positive : 0 < total)
    (bounded : total < 2 ^ 64) : stageProgress total total = 100 := by
  rw [stageProgress, (isPositive_toFloat32 positive bounded).div_self]
  decide

end FlightGuard
