import FlightGuard.Number.Binary

/-!
# Decimal numbers

A decimal is a sign, a natural number of digits and a power of ten.  It is the value of a number
written in a document.
-/

namespace FlightGuard

/-- The number `± digits * 10 ^ exponent`. -/
structure Decimal where
  negative : Bool
  digits : Nat
  exponent : Int
deriving DecidableEq, Repr

namespace Decimal

/-- The double nearest to a decimal, an infinity where it is beyond the range of doubles. -/
def toFloat (number : Decimal) : Float :=
  let magnitude := Float.ofModel (Float.Model.ofScientific number.digits number.exponent)
  if number.negative then -magnitude else magnitude

end Decimal

end FlightGuard
