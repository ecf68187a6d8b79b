/-!
# Exact values of floating point numbers

A finite floating point number is a sign, a natural significand and a power of two.  This file
opens a number into that form and closes such a form again by rounding to the nearest number
of a format, a tie going to the even significand.

Narrowing a double to a single is one rounding of the exact value.
-/

namespace FlightGuard

open Float.Model

/--
The value that a floating point number stands for: no number at all, an infinity, or
`± significand * 2 ^ exponent`.
-/
inductive Binary where
  | undefined
  | infinite (negative : Bool)
  | finite (negative : Bool) (significand : Nat) (exponent : Int)
deriving DecidableEq, Repr

namespace Binary

/-- Whether a sign is the negative one. -/
def isNegative : UnpackedFloat.Sign → Bool
  | .negative => true
  | .positive => false

/-- The sign with the given negativity. -/
def sign (negative : Bool) : UnpackedFloat.Sign :=
  if negative then .negative else .positive

/-- Reads the value of an unpacked number. -/
def ofUnpacked : UnpackedFloat → Binary
  | .notANumber => undefined
  | .infinity side => infinite (isNegative side)
  | .zero side => finite (isNegative side) 0 0
  | .finite side mantissa exponent _ => finite (isNegative side) mantissa exponent

/-- The nearest number of a format, an infinity where the value is beyond its range. -/
def nearest (format : Format) : Binary → UnpackedFloat
  | undefined => .notANumber
  | infinite negative => .infinity (sign negative)
  | finite negative significand exponent =>
      if significand = 0 then .zero (sign negative)
      else UnpackedFloat.round format (sign negative) significand exponent

/-- The exact value of a double. -/
def ofFloat (number : Float) : Binary :=
  ofUnpacked number.toModel.unpack

/-- The exact value of a single. -/
def ofFloat32 (number : Float32) : Binary :=
  ofUnpacked number.toModel.unpack

/-- The single nearest to a value. -/
def toFloat32 (value : Binary) : Float32 :=
  .ofModel (.pack (value.nearest Format.binary32))

end Binary

/-- The single nearest to a double. -/
def narrow (number : Float) : Float32 :=
  (Binary.ofFloat number).toFloat32

end FlightGuard
