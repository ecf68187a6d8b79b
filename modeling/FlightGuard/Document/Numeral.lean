import FlightGuard.Document.Basic

/-!
# Reading numerals

Which floating point number a numeral stands for is a matter of whoever reads the format, and a
`NumberReading` says it.  What is read from documents is defined for any such reading.

The reading that is given here goes by arithmetic on doubles.  As many digits as make a number of 64
bits become a double, which is multiplied with or divided by a power of ten.  Each of these steps is
rounded, so a numeral with many digits may be read as a neighbour of the double nearest to it.
-/

namespace FlightGuard

/--
How numerals are read as floating point numbers.  A numeral whose double is not finite is beyond the
range of numbers.
-/
class NumberReading where
  double : Numeral → Float
  single : Numeral → Float32

namespace Decimal

/-- The first digits, as many as make a number of 64 bits, and the power of ten that they have. -/
def leading (number : Decimal) : Nat × Int :=
  let excess := (Nat.toDigits 10 number.digits).length - 20
  let first := number.digits / Nat.pow 10 excess
  if first < UInt64.size then (first, number.exponent + excess)
  else (first / 10, number.exponent + excess + 1)

/-- A power of ten as a double. -/
def tens (power : Nat) : Float :=
  toFloat ⟨false, 1, power⟩

/--
Digits times a power of ten, computed with doubles.  The powers of ten are doubles up to the 308th;
beyond them a product is infinite, and a quotient by more than two of them is zero.
-/
def scaled (digits : Nat) : Int → Float
  | .ofNat power =>
      if power ≤ 308 then toFloat ⟨false, digits, 0⟩ * tens power
      else if digits = 0 then 0
      else 1 / 0
  | .negSucc power =>
      if power < 308 then toFloat ⟨false, digits, 0⟩ / tens (power + 1)
      else if power < 616 then toFloat ⟨false, digits, 0⟩ / tens 308 / tens (power - 307)
      else 0

/-- The double that arithmetic on doubles gives for a decimal. -/
def computed (number : Decimal) : Float :=
  let magnitude := scaled number.leading.1 number.leading.2
  if number.negative then -magnitude else magnitude

end Decimal

/-- The numeral is an integer of 64 bits. -/
def Numeral.isShort (numeral : Numeral) : Bool :=
  numeral.whole &&
    if numeral.value.negative then numeral.value.digits ≤ Nat.pow 2 63
    else numeral.value.digits < UInt64.size

/-- A short integer becomes a single directly, any other numeral becomes one by way of a double. -/
instance NumberReading.byArithmetic : NumberReading where
  double numeral := numeral.value.computed
  single numeral :=
    if numeral.isShort then
      (Binary.finite numeral.value.negative numeral.value.digits 0).toFloat32
    else narrow numeral.value.computed

end FlightGuard
