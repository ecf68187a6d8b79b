import FlightGuard.Number.Binary
import Mathlib

/-!
# The numbers of a floating point format

A format has a finite number in one form only: with all its digits, or with the least exponent.
A number that is packed in this form is unpacked in it, rounding finds the form again in every other
one of the same value, and what rounding gives is in this form unless it is too large.
-/

namespace FlightGuard

open Float.Model UnpackedFloat

variable {format : Format}

/-- The format has the number `significand * 2 ^ exponent`, and has it in this form. -/
structure IsInForm (format : Format) (significand : Nat) (exponent : Int) : Prop where
  positive : 0 < significand
  placed : exponent = format.targetExponent (totalExponent significand exponent)
  bounded : exponent + format.mantissaBitsWithoutImplicit ≤ format.exponentBias

theorem two_pow_exponentBits (format : Format) :
    2 ^ format.exponentBits = 2 * format.exponentBias + 2 := by
  obtain ⟨bits, many⟩ := Nat.exists_eq_add_of_lt format.he
  have one := Nat.one_le_two_pow (n := bits)
  rw [Format.exponentBias, many, Nat.zero_add, Nat.add_sub_cancel, pow_succ]
  omega

/-- The exponent of the numbers that are too small for all digits. -/
theorem minExponent_eq (format : Format) :
    format.minExponent = 1 - format.exponentBias - format.mantissaBitsWithoutImplicit := by
  have one := Nat.one_le_two_pow (n := format.exponentBits - 1)
  have split : ((2 ^ (format.exponentBits - 1) : Nat) : Int) = 2 ^ (format.exponentBits - 1) := by
    push_cast
    rfl
  simp only [Format.minExponent, Format.exponentBias, Format.mantissaBits]
  omega

/-- A number has all its digits, or it has fewer and the least exponent. -/
theorem IsInForm.cases {significand : Nat} {exponent : Int}
    (inForm : IsInForm format significand exponent) :
    (significand.log2 = format.mantissaBitsWithoutImplicit ∧ format.minExponent ≤ exponent)
      ∨ (significand.log2 < format.mantissaBitsWithoutImplicit
        ∧ exponent = format.minExponent) := by
  have placed := inForm.placed
  simp only [Format.targetExponent, totalExponent, Format.mantissaBits] at placed
  omega

theorem isInForm_of_log2_eq {significand : Nat} {exponent : Int} (positive : 0 < significand)
    (digits : significand.log2 = format.mantissaBitsWithoutImplicit)
    (above : format.minExponent ≤ exponent)
    (bounded : exponent + format.mantissaBitsWithoutImplicit ≤ format.exponentBias) :
    IsInForm format significand exponent where
  positive := positive
  placed := by
    simp only [Format.targetExponent, totalExponent, Format.mantissaBits]
    omega
  bounded := bounded

/-! ## Packing -/

theorem ofBitVec_toBitVec (side : Sign) : Sign.ofBitVec side.toBitVec = side := by
  cases side <;> rfl

theorem unpackSign_packComponents {side : Sign} {exponent : BitVec format.exponentBits}
    {mantissa : BitVec format.mantissaBitsWithoutImplicit} :
    unpackSign (packComponents format side exponent mantissa) = side.toBitVec := by
  apply BitVec.eq_of_getLsbD_eq
  intro place small
  simp only [packComponents, unpackSign, BitVec.getLsbD_append, BitVec.getLsbD_cast,
    BitVec.getLsbD_extractLsb]
  have first : place = 0 := by omega
  simp [first]

/-- The significand of a number with all its digits: the first one is not among the bits. -/
theorem toNat_implicit {bits : Nat} (mantissa : BitVec bits) :
    (1#1 ++ mantissa).toNat = 2 ^ bits + mantissa.toNat := by
  rw [BitVec.toNat_append, ← Nat.shiftLeft_add_eq_or_of_lt mantissa.isLt, Nat.shiftLeft_eq]
  simp

theorem ne_zero_iff {bits : Nat} (value : BitVec bits) : value ≠ 0#_ ↔ value.toNat ≠ 0 := by
  rw [ne_eq, ← BitVec.toNat_inj, BitVec.toNat_zero]

theorem ne_ones_iff (value : BitVec format.exponentBits) :
    value ≠ -1#_ ↔ value.toNat ≤ 2 * format.exponentBias := by
  have small := value.isLt
  have all := two_pow_exponentBits format
  rw [ne_eq, ← BitVec.toNat_inj, BitVec.neg_one_eq_allOnes, BitVec.toNat_allOnes]
  omega

theorem log2_lt_iff {significand bits : Nat} (positive : 0 < significand) :
    significand.log2 < bits ↔ significand < 2 ^ bits :=
  Nat.log2_lt (Nat.ne_of_gt positive)

theorem log2_mul_two_pow {significand : Nat} (positive : 0 < significand) (count : Nat) :
    (significand * 2 ^ count).log2 = significand.log2 + count := by
  induction count with
  | zero => rw [pow_zero, Nat.mul_one, Nat.add_zero]
  | succ count induction =>
      have nonzero : significand * 2 ^ count ≠ 0 := by positivity
      rw [pow_succ, ← Nat.mul_assoc, Nat.mul_comm _ 2, Nat.log2_two_mul nonzero, induction,
        Nat.add_assoc]

theorem pack_of_log2_eq {significand : Nat} {exponent : Int} (positive : 0 < significand)
    (digits : significand.log2 = format.mantissaBitsWithoutImplicit)
    (bounded : exponent + format.mantissaBitsWithoutImplicit ≤ format.exponentBias) (side : Sign) :
    UnpackedFloat.pack format (.finite side significand exponent positive) =
      packComponents format side
        (BitVec.ofNat _
          (exponent + format.exponentBias + format.mantissaBitsWithoutImplicit).toNat)
        (BitVec.ofNat _ significand) := by
  have all := two_pow_exponentBits format
  have full : significand.log2 + 1 = format.mantissaBits := by
    rw [Format.mantissaBits, digits, Nat.add_comm]
  rw [UnpackedFloat.pack, if_neg (by omega), if_pos full]

theorem pack_of_log2_lt (wide : 0 < format.exponentBias) {significand : Nat}
    (positive : 0 < significand)
    (digits : significand.log2 < format.mantissaBitsWithoutImplicit) (side : Sign) :
    UnpackedFloat.pack format (.finite side significand format.minExponent positive) =
      packComponents format side 0#_ (BitVec.ofNat _ significand) := by
  have all := two_pow_exponentBits format
  have least := minExponent_eq format
  have short : significand.log2 + 1 ≠ format.mantissaBits := by
    rw [Format.mantissaBits]
    omega
  rw [UnpackedFloat.pack, if_neg (by omega), if_neg short]

/-- A number in its form is unpacked as it was packed. -/
theorem IsInForm.unpack_pack {significand : Nat} {exponent : Int}
    (inForm : IsInForm format significand exponent) (wide : 0 < format.exponentBias)
    (side : Sign) :
    UnpackedFloat.unpack format
        (UnpackedFloat.pack format (.finite side significand exponent inForm.positive)) =
      .finite side significand exponent inForm.positive := by
  have least := minExponent_eq format
  have bounded := inForm.bounded
  rcases inForm.cases with ⟨digits, above⟩ | ⟨digits, rfl⟩
  · have place : 1 ≤ (exponent + format.exponentBias + format.mantissaBitsWithoutImplicit).toNat
        ∧ (exponent + format.exponentBias + format.mantissaBitsWithoutImplicit).toNat ≤
          2 * format.exponentBias := by omega
    generalize biased :
      (exponent + format.exponentBias + format.mantissaBitsWithoutImplicit).toNat = stored at place
    have all := two_pow_exponentBits format
    have kept : (BitVec.ofNat format.exponentBits stored).toNat = stored := by
      rw [BitVec.toNat_ofNat, Nat.mod_eq_of_lt (by omega)]
    have finite : BitVec.ofNat format.exponentBits stored ≠ -1#_ := by
      rw [ne_ones_iff, kept]
      exact place.2
    have large : BitVec.ofNat format.exponentBits stored ≠ 0#_ := by
      rw [ne_zero_iff, kept]
      omega
    have implicit : (1#1 ++ BitVec.ofNat format.mantissaBitsWithoutImplicit significand).toNat =
        significand := by
      have below : significand < 2 ^ (format.mantissaBitsWithoutImplicit + 1) :=
        (log2_lt_iff inForm.positive).mp (by omega)
      have above : ¬ significand < 2 ^ format.mantissaBitsWithoutImplicit := by
        rw [← log2_lt_iff inForm.positive]
        omega
      rw [toNat_implicit, BitVec.toNat_ofNat, Nat.mod_eq_sub_mod (by omega),
        Nat.mod_eq_of_lt (by rw [pow_succ] at below; omega)]
      omega
    rw [pack_of_log2_eq inForm.positive digits bounded, UnpackedFloat.unpack]
    simp only [unpackMantissa_packComponents, unpackExponent_packComponents,
      unpackSign_packComponents, ofBitVec_toBitVec, biased, finite, large, if_false, kept,
      implicit]
    congr 1
    omega
  · have small : significand < 2 ^ format.mantissaBitsWithoutImplicit :=
      (log2_lt_iff inForm.positive).mp digits
    have kept : (BitVec.ofNat format.mantissaBitsWithoutImplicit significand).toNat =
        significand := by
      rw [BitVec.toNat_ofNat, Nat.mod_eq_of_lt small]
    have nonzero : BitVec.ofNat format.mantissaBitsWithoutImplicit significand ≠ 0#_ := by
      rw [ne_zero_iff, kept]
      exact Nat.ne_of_gt inForm.positive
    have finite : (0#_ : BitVec format.exponentBits) ≠ -1#_ := by
      rw [ne_ones_iff, BitVec.toNat_zero]
      exact Nat.zero_le _
    rw [pack_of_log2_lt wide inForm.positive digits, UnpackedFloat.unpack]
    simp only [unpackMantissa_packComponents, unpackExponent_packComponents,
      unpackSign_packComponents, ofBitVec_toBitVec, finite, nonzero, if_false, if_true, dif_neg,
      kept, not_false_eq_true, BitVec.toNat_zero]
    congr 1
    rw [least]
    omega

/-! ## Rounding -/

/-- The forms of a number have one most significant digit. -/
theorem totalExponent_mul_two_pow {significand : Nat} (positive : 0 < significand)
    (exponent : Int) (count : Nat) :
    totalExponent (significand * 2 ^ count) (exponent - count) =
      totalExponent significand exponent := by
  rw [totalExponent, totalExponent, log2_mul_two_pow positive]
  push_cast
  omega

/-- Shifting undoes a multiplication by a power of two, and nothing is lost. -/
theorem shift_exact (significand count : Nat) :
    ExtendedMantissa.mk (significand * 2 ^ count) false false >>> count =
      ExtendedMantissa.mk significand false false := by
  induction count generalizing significand with
  | zero =>
      rw [pow_zero, Nat.mul_one]
      rfl
  | succ count induction =>
      change ExtendedMantissa.shiftRightOne
        (ExtendedMantissa.mk (significand * 2 ^ (count + 1)) false false >>> count) = _
      rw [pow_succ, Nat.mul_comm _ 2, ← Nat.mul_assoc, induction]
      simp [ExtendedMantissa.shiftRightOne]

/-- A number of the format is found again in every other form with a lower exponent. -/
theorem IsInForm.shiftToTargetExponent {significand : Nat} {exponent : Int}
    (inForm : IsInForm format significand exponent) (count : Nat) :
    UnpackedFloat.shiftToTargetExponent format (significand * 2 ^ count) (exponent - count)
        .exact =
      (⟨significand, false, false⟩, exponent) := by
  have shift : (exponent - (exponent - count)).toNat = count := by omega
  rw [UnpackedFloat.shiftToTargetExponent, totalExponent_mul_two_pow inForm.positive,
    ← inForm.placed, shiftToExponent, shift]
  simp only [ExtendedMantissa.ofMantissaAndAccuracy, shift_exact, Int.sub_add_cancel]

theorem IsInForm.roundWithAccuracy {significand : Nat} {exponent : Int}
    (inForm : IsInForm format significand exponent) (side : Sign) (count : Nat) :
    UnpackedFloat.roundWithAccuracy format side (significand * 2 ^ count) (exponent - count)
        .exact =
      .finite side significand exponent inForm.positive := by
  have settled := inForm.shiftToTargetExponent 0
  rw [pow_zero, Nat.mul_one, Nat.cast_zero, Int.sub_zero] at settled
  have positive := Nat.ne_of_gt inForm.positive
  rw [UnpackedFloat.roundWithAccuracy, inForm.shiftToTargetExponent count]
  simp only [ExtendedMantissa.roundedMantissa, ExtendedMantissa.accuracy,
    Accuracy.roundToNearestEven, settled, positive, dif_neg, not_false_eq_true]

/-- Rounding a number of the format from a form with a higher exponent. -/
theorem IsInForm.round_of_higher {significand : Nat} {exponent : Int} {count : Nat}
    (positive : 0 < significand)
    (inForm : IsInForm format (significand * 2 ^ count) (exponent - count)) (side : Sign) :
    UnpackedFloat.round format side significand exponent =
      .finite side (significand * 2 ^ count) (exponent - count) inForm.positive := by
  have shift : (exponent - (exponent - count)).toNat = count := by omega
  have settled := inForm.roundWithAccuracy side 0
  rw [pow_zero, Nat.mul_one, Nat.cast_zero, Int.sub_zero] at settled
  rw [UnpackedFloat.round, ← totalExponent_mul_two_pow positive exponent count, ← inForm.placed,
    decreaseExponent, shift, Nat.shiftLeft_eq]
  exact settled

theorem shift_mantissa (extended : ExtendedMantissa) (count : Nat) :
    (extended >>> count).mantissa = extended.mantissa / 2 ^ count := by
  induction count with
  | zero =>
      rw [pow_zero, Nat.div_one]
      rfl
  | succ count induction =>
      change (extended >>> count).mantissa / 2 = _
      rw [induction, Nat.div_div_eq_div_mul, pow_succ]

/-- Rounding leaves the digits as they are, or raises the last one by one. -/
theorem roundedMantissa_cases (extended : ExtendedMantissa) :
    extended.roundedMantissa = extended.mantissa
      ∨ extended.roundedMantissa = extended.mantissa + 1 := by
  rcases extended with ⟨mantissa, guard, sticky⟩
  have parity := Nat.mod_two_eq_zero_or_one mantissa
  cases guard <;> cases sticky
  · exact Or.inl rfl
  · exact Or.inl rfl
  · rcases parity with even | odd
    · left
      change mantissa + mantissa % 2 = mantissa
      rw [even, Nat.add_zero]
    · right
      change mantissa + mantissa % 2 = mantissa + 1
      rw [odd]
  · exact Or.inr rfl

/-- Digits between a power of two and the next one belong to a number of the format. -/
theorem exists_isInForm {digits : Nat} {place : Int}
    (least : 2 ^ format.mantissaBitsWithoutImplicit ≤ digits)
    (most : digits ≤ 2 ^ (format.mantissaBitsWithoutImplicit + 1))
    (above : format.minExponent ≤ place)
    (below : place + format.mantissaBitsWithoutImplicit < format.exponentBias) :
    ∃ (significand count : Nat), digits = significand * 2 ^ count
      ∧ IsInForm format significand (place + count) := by
  have positive : 0 < digits := Nat.lt_of_lt_of_le (Nat.two_pow_pos _) least
  rcases Nat.lt_or_eq_of_le most with less | rfl
  · refine ⟨digits, 0, (Nat.mul_one _).symm, ?_⟩
    have short := (log2_lt_iff positive).mpr less
    have long : ¬ digits.log2 < format.mantissaBitsWithoutImplicit := by
      rw [log2_lt_iff positive]
      exact Nat.not_lt_of_le least
    exact isInForm_of_log2_eq positive (by omega) (by omega) (by omega)
  · refine ⟨2 ^ format.mantissaBitsWithoutImplicit, 1, pow_succ _ _, ?_⟩
    exact isInForm_of_log2_eq (Nat.two_pow_pos _) (Nat.log2_two_pow ..) (by omega) (by omega)

/-- Rounding more digits than a format has gives a number of the format, unless it is too large. -/
theorem exists_roundWithAccuracy {significand : Nat} {exponent : Int} (positive : 0 < significand)
    (many : format.mantissaBitsWithoutImplicit ≤ significand.log2)
    (above : format.minExponent ≤ exponent)
    (below : exponent + significand.log2 < format.exponentBias) (side : Sign) :
    ∃ (rounded : Nat) (place : Int) (inForm : IsInForm format rounded place),
      UnpackedFloat.roundWithAccuracy format side significand exponent .exact =
        .finite side rounded place inForm.positive := by
  obtain ⟨extra, split⟩ := Nat.exists_eq_add_of_le many
  have least : 2 ^ format.mantissaBitsWithoutImplicit ≤ significand / 2 ^ extra := by
    rw [Nat.le_div_iff_mul_le (Nat.two_pow_pos _), ← pow_add, ← split]
    exact Nat.log2_self_le (Nat.ne_of_gt positive)
  have most : significand / 2 ^ extra < 2 ^ (format.mantissaBitsWithoutImplicit + 1) := by
    rw [Nat.div_lt_iff_lt_mul (Nat.two_pow_pos _), ← pow_add, Nat.add_right_comm, ← split]
    exact Nat.lt_log2_self
  have shift : (format.targetExponent (totalExponent significand exponent) - exponent).toNat =
      extra := by
    simp only [Format.targetExponent, totalExponent, Format.mantissaBits]
    omega
  -- The digits that are left may be rounded up to the next power of two, which has one too many.
  generalize cut : ExtendedMantissa.ofMantissaAndAccuracy significand .exact >>> extra = extended
  have kept : extended.mantissa = significand / 2 ^ extra := by
    rw [← cut, shift_mantissa]
    rfl
  have range : 2 ^ format.mantissaBitsWithoutImplicit ≤ extended.roundedMantissa
      ∧ extended.roundedMantissa ≤ 2 ^ (format.mantissaBitsWithoutImplicit + 1) := by
    rcases roundedMantissa_cases extended with same | raised <;> omega
  have above : format.minExponent ≤ exponent + extra := by omega
  obtain ⟨rounded, count, digits, inForm⟩ := exists_isInForm range.1 range.2 above (by omega)
  refine ⟨rounded, exponent + extra + count, inForm, ?_⟩
  have settled := inForm.shiftToTargetExponent count
  rw [← digits, Int.add_sub_cancel] at settled
  rw [UnpackedFloat.roundWithAccuracy, UnpackedFloat.shiftToTargetExponent, shiftToExponent, shift,
    cut]
  have nonzero := Nat.ne_of_gt inForm.positive
  simp only [settled, nonzero, dif_neg, not_false_eq_true]

end FlightGuard
