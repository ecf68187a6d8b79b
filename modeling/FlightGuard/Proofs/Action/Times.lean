import FlightGuard.Action.Basic
import Mathlib

/-!
# Which times fit into a duration

The waits and the time limit of an action are doubles.  What is no number, infinite or negative is
no wait and no limit, and of the rest a duration takes all that is below `2 ^ 64` seconds.  At that
number the doubles are `2 ^ 12` seconds apart, so none of them comes near it from below and is
rounded up to it.
-/

namespace FlightGuard

open Float.Model

/-! ## Doubles -/

theorem isFinite_eq (number : Float) : number.isFinite = number.toModel.unpack.isFinite :=
  rfl

theorem decide_le (first second : Float) :
    decide (first ≤ second) = first.toModel.unpack.le second.toModel.unpack :=
  Bool.eq_iff_iff.mpr (decide_eq_true_iff.trans decide_eq_true_iff)

theorem decide_lt (first second : Float) :
    decide (first < second) = first.toModel.unpack.lt second.toModel.unpack :=
  Bool.eq_iff_iff.mpr (decide_eq_true_iff.trans decide_eq_true_iff)

theorem unpack_zero : (0.0 : Float).toModel.unpack = .zero .positive := by
  rfl

/-- A finite double has 53 binary digits, or it is one of the smallest. -/
theorem unpack_digits {number : Float} {side : UnpackedFloat.Sign} {significand : Nat}
    {exponent : Int} {positive : 0 < significand}
    (finite : number.toModel.unpack = .finite side significand exponent positive) :
    significand < 2 ^ 53 ∧ (2 ^ 52 ≤ significand ∨ exponent = -1074) := by
  rw [Float.Model.unpack, UnpackedFloat.unpack] at finite
  have fraction := (@UnpackedFloat.unpackMantissa Format.binary64
    number.toModel.toBits.toBitVec).isLt
  split at finite
  · split at finite <;> cases finite
  · split at finite
    next zero =>
      split at finite
      · cases finite
      · cases finite
        refine ⟨Nat.lt_trans fraction (by decide), Or.inr ?_⟩
        rw [zero]
        rfl
    next =>
      cases finite
      have one : (1#1).toNat = 1 := rfl
      rw [BitVec.toNat_append, ← Nat.shiftLeft_add_eq_or_of_lt fraction, one, Nat.shiftLeft_eq,
        Nat.one_mul]
      exact ⟨Nat.add_lt_add_left fraction _, Or.inl (Nat.le_add_right _ _)⟩

/-! ## Rounding to nanoseconds -/

theorem roundedQuotient_le (numerator denominator : Nat) :
    roundedQuotient numerator denominator ≤ numerator / denominator + 1 := by
  rw [roundedQuotient]
  split
  · exact Nat.le_succ _
  · split
    · exact Nat.le_refl _
    · exact Nat.add_le_add_left (Nat.le_of_lt_succ (Nat.mod_lt _ (by decide))) _

/-- Below `2 ^ 12` in the last place a double is so far below the limit that it stays there. -/
theorem scaledNearest_lt {significand : Nat} {exponent : Int} (digits : significand < 2 ^ 53)
    (small : exponent < 12) :
    scaledNearest 1000000000 significand exponent < Duration.limitSeconds * 1000000000 := by
  cases exponent with
  | ofNat power =>
      have power : 2 ^ power ≤ 2 ^ 11 :=
        Nat.pow_le_pow_right (by decide) (Nat.le_of_lt_succ (Int.ofNat_lt.mp small))
      calc 1000000000 * significand * 2 ^ _
          ≤ 1000000000 * significand * 2 ^ 11 := Nat.mul_le_mul_left _ power
        _ < Duration.limitSeconds * 1000000000 := by
            rw [Duration.limitSeconds, UInt64.size]
            omega
  | negSucc power =>
      calc roundedQuotient (1000000000 * significand) (2 ^ (power + 1))
          ≤ 1000000000 * significand / 2 ^ (power + 1) + 1 := roundedQuotient_le _ _
        _ ≤ 1000000000 * significand + 1 := Nat.succ_le_succ (Nat.div_le_self _ _)
        _ < Duration.limitSeconds * 1000000000 := by
            rw [Duration.limitSeconds, UInt64.size]
            omega

theorem le_scaledNearest {significand : Nat} {exponent : Int} (digits : 2 ^ 52 ≤ significand)
    (large : 12 ≤ exponent) :
    Duration.limitSeconds * 1000000000 ≤ scaledNearest 1000000000 significand exponent := by
  cases exponent with
  | ofNat power =>
      have power : 2 ^ 12 ≤ 2 ^ power :=
        Nat.pow_le_pow_right (by decide) (Int.ofNat_le.mp large)
      calc Duration.limitSeconds * 1000000000
          ≤ 1000000000 * significand * 2 ^ 12 := by
            rw [Duration.limitSeconds, UInt64.size]
            omega
        _ ≤ 1000000000 * significand * 2 ^ _ := Nat.mul_le_mul_left _ power
  | negSucc power =>
      have negative := Int.lt_of_lt_of_le (Int.negSucc_lt_zero power) (by decide : (0 : Int) ≤ 12)
      exact absurd large (Int.not_le.mpr negative)

/-! ## Seconds -/

/-- Whether a number of seconds is finite and too large for a duration. -/
def Duration.isExceededBy (seconds : Float) : Bool :=
  seconds.isFinite && 18446744073709551616.0 ≤ seconds

theorem unpack_limit :
    (18446744073709551616.0 : Float).toModel.unpack =
      .finite .positive (2 ^ 52) 12 (by decide) := by
  rfl

/-- A positive double is too large exactly from `2 ^ 12` in the last place on. -/
theorem isExceededBy_iff {seconds : Float} {significand : Nat} {exponent : Int}
    {positive : 0 < significand}
    (finite : seconds.toModel.unpack = .finite .positive significand exponent positive) :
    Duration.isExceededBy seconds = true ↔ 12 ≤ exponent := by
  rw [Duration.isExceededBy, isFinite_eq, decide_le, unpack_limit, finite]
  change ((compare (12 : Int) exponent).then (compare (2 ^ 52) significand)).isLE = true ↔ _
  rw [Ordering.isLE_then_iff_or, Int.compare_eq_lt, Int.compare_eq_eq, Nat.isLE_compare]
  constructor
  · rintro (above | ⟨same, _⟩)
    · exact Int.le_of_lt above
    · exact Int.le_of_eq same
  · intro large
    rcases Int.lt_or_eq_of_le large with above | rfl
    · exact Or.inl above
    · exact Or.inr ⟨rfl, (unpack_digits finite).2.resolve_right (by decide)⟩

/-- A positive double has a duration unless it is too large. -/
theorem ofSeconds_isOk_of_positive {seconds : Float} {significand : Nat} {exponent : Int}
    {positive : 0 < significand}
    (finite : seconds.toModel.unpack = .finite .positive significand exponent positive) :
    (Duration.ofSeconds seconds).isOk = !Duration.isExceededBy seconds := by
  have value : Binary.ofFloat seconds = .finite false significand exponent := by
    rw [Binary.ofFloat, finite]
    rfl
  have digits := unpack_digits finite
  rw [Duration.ofSeconds, value]
  by_cases large : 12 ≤ exponent
  · have normal := digits.2.resolve_right (by rintro rfl; exact absurd large (by decide))
    have beyond := Nat.not_lt.mpr (le_scaledNearest normal large)
    simp only [beyond, if_false, (isExceededBy_iff finite).mpr large]
    rfl
  · have below := scaledNearest_lt digits.1 (Int.not_le.mp large)
    have fits : Duration.isExceededBy seconds = false :=
      Bool.eq_false_iff.mpr fun exceeded => large ((isExceededBy_iff finite).mp exceeded)
    simp only [below, if_true, fits]
    rfl

/-- Seconds that are not finite and positive are not too large. -/
theorem isExceededBy_eq_false {seconds : Float} {value : UnpackedFloat}
    (shape : seconds.toModel.unpack = value)
    (other : ∀ significand exponent positive,
      value ≠ .finite .positive significand exponent positive) :
    Duration.isExceededBy seconds = false := by
  rw [Duration.isExceededBy, isFinite_eq, decide_le, unpack_limit, shape]
  cases value with
  | notANumber | infinity _ | zero _ => rfl
  | finite side significand exponent positive =>
      cases side with
      | negative => rfl
      | positive => exact absurd rfl (other significand exponent positive)

/-- The wait behind a stage fits into a duration unless it is finite and too large. -/
theorem Stage.wait_isOk (stage : Stage) :
    stage.wait.isOk = !Duration.isExceededBy stage.seconds := by
  rw [wait, isFinite_eq, decide_lt, unpack_zero]
  cases shape : stage.seconds.toModel.unpack with
  | finite side significand exponent positive =>
      cases side with
      | positive => exact ofSeconds_isOk_of_positive shape
      | negative =>
          rw [isExceededBy_eq_false shape nofun]
          rfl
  | notANumber | infinity _ | zero _ =>
      rw [isExceededBy_eq_false shape nofun]
      rfl

theorem ofSeconds_isOk_of_zero {seconds : Float} {side : UnpackedFloat.Sign}
    (zero : seconds.toModel.unpack = .zero side) : (Duration.ofSeconds seconds).isOk = true := by
  have value : Binary.ofFloat seconds = .finite (Binary.isNegative side) 0 0 := by
    rw [Binary.ofFloat, zero]
    rfl
  rw [Duration.ofSeconds, value]
  rfl

/-- The time limit of an action fits into a duration unless it is finite and too large. -/
theorem CustomAction.limit_isOk (action : CustomAction) :
    action.limit.isOk = !action.limitSeconds.any Duration.isExceededBy := by
  rw [limit]
  cases action.limitSeconds with
  | none => rfl
  | some seconds =>
      have mapped : ((Duration.ofSeconds seconds).map some).isOk =
          (Duration.ofSeconds seconds).isOk := by
        cases Duration.ofSeconds seconds <;> rfl
      rw [Option.any_some]
      simp only [isFinite_eq, decide_le, unpack_zero]
      cases shape : seconds.toModel.unpack with
      | finite side significand exponent positive =>
          cases side with
          | positive => exact mapped.trans (ofSeconds_isOk_of_positive shape)
          | negative =>
              rw [isExceededBy_eq_false shape nofun]
              rfl
      | zero side =>
          rw [isExceededBy_eq_false shape nofun]
          exact mapped.trans (ofSeconds_isOk_of_zero shape)
      | notANumber | infinity _ =>
          rw [isExceededBy_eq_false shape nofun]
          rfl

/-- The longest of all durations is rounded up to too many seconds. -/
example : Duration.isExceededBy (Duration.toSeconds ⟨2 ^ 64 * 1000000000 - 1⟩) = true := by
  rfl

namespace CustomAction

/-- Every time that the action is going to need fits into a duration. -/
def isTimely (action : CustomAction) : Bool :=
  if action.stages.isEmpty then
    action.script.isNone || !action.limitSeconds.any Duration.isExceededBy
  else action.stages.all fun stage => !Duration.isExceededBy stage.seconds

theorem wait_isOk_of_isTimely {action : CustomAction} (timely : action.isTimely = true)
    {stage : Stage} (member : stage ∈ action.stages) : stage.wait.isOk = true := by
  have staged : action.stages.isEmpty = false :=
    List.isEmpty_eq_false_iff_exists_mem.mpr ⟨stage, member⟩
  rw [isTimely, staged] at timely
  rw [stage.wait_isOk]
  exact List.all_eq_true.mp timely stage member

theorem limit_isOk_of_isTimely {action : CustomAction} (timely : action.isTimely = true)
    (unstaged : action.stages = []) {script : String} (given : action.script = some script) :
    action.limit.isOk = true := by
  rw [isTimely, unstaged, given] at timely
  rw [action.limit_isOk]
  exact timely

end CustomAction

end FlightGuard
