import FlightGuard.Number.Binary

/-!
# Rounding a quotient, and text with fixed decimal places

`roundedQuotient` is the natural number nearest to a quotient, a tie going to the even
neighbour.  Every fixed-place text and every conversion of seconds into nanoseconds is this one
rounding, applied to the exact value.
-/

namespace FlightGuard

/-- The natural number nearest to `numerator / denominator`; a tie goes to the even one. -/
def roundedQuotient (numerator denominator : Nat) : Nat :=
  let quotient := numerator / denominator
  let remainder := numerator % denominator
  if 2 * remainder < denominator then quotient
  else if denominator < 2 * remainder then quotient + 1
  else quotient + quotient % 2

/-- The natural number nearest to `scale * significand * 2 ^ exponent`. -/
def scaledNearest (scale significand : Nat) : Int → Nat
  | .ofNat power => scale * significand * Nat.pow 2 power
  | .negSucc power => roundedQuotient (scale * significand) (Nat.pow 2 (power + 1))

/-- The digits of a number, filled up with zeros in front to at least `width`. -/
def paddedDigits (width number : Nat) : String :=
  let digits := toString number
  "".pushn '0' (width - digits.length) ++ digits

/-- Writes `units / 10 ^ places` with exactly `places` decimals. -/
def placedDigits (places units : Nat) : String :=
  let whole := toString (units / Nat.pow 10 places)
  if places = 0 then whole
  else whole ++ "." ++ paddedDigits places (units % Nat.pow 10 places)

namespace Binary

/--
Writes a value with a fixed number of decimals, rounded to nearest with ties to even.  The sign
is kept also where all digits are zero.
-/
def fixedText (places : Nat) : Binary → String
  | undefined => "NaN"
  | infinite negative => if negative then "-inf" else "inf"
  | finite negative significand exponent =>
      let units := scaledNearest (Nat.pow 10 places) significand exponent
      (if negative then "-" else "") ++ placedDigits places units

end Binary

/-- Writes a double with a fixed number of decimals. -/
def fixedText (places : Nat) (number : Float) : String :=
  (Binary.ofFloat number).fixedText places

end FlightGuard
