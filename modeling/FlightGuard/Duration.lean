import FlightGuard.Number.Rounding

/-!
# Durations

A duration is a whole number of nanoseconds, at most `2 ^ 64` seconds.  Seconds given as a double
become the nearest nanosecond; seconds at or beyond the limit have no duration.  Timers work in
whole milliseconds, so a wait lasts the duration rounded up.
-/

namespace FlightGuard

/-- A span of time. -/
structure Duration where
  nanoseconds : Nat
deriving DecidableEq, Repr

/-- Seconds that are too many for a duration. -/
inductive DurationError where
  | outOfRange
deriving DecidableEq, Repr

namespace Duration

/-- No time at all. -/
def zero : Duration := ⟨0⟩

/-- A whole number of microseconds. -/
def ofMicroseconds (count : Nat) : Duration := ⟨count * 1000⟩

/-- A whole number of seconds. -/
def ofWholeSeconds (count : Nat) : Duration := ⟨count * 1000000000⟩

/-- The first number of seconds that no duration reaches. -/
def limitSeconds : Nat := UInt64.size

/-- The duration nearest to a finite, non-negative number of seconds. -/
def ofSeconds (seconds : Float) : Except DurationError Duration :=
  match Binary.ofFloat seconds with
  | .finite _ significand exponent =>
      let nanoseconds := scaledNearest 1000000000 significand exponent
      if nanoseconds < limitSeconds * 1000000000 then .ok ⟨nanoseconds⟩
      else .error .outOfRange
  | _ => .error .outOfRange

/-- The duration as a double number of seconds: whole seconds plus the fraction, one addition. -/
def toSeconds (duration : Duration) : Float :=
  (duration.nanoseconds / 1000000000).toFloat
    + (duration.nanoseconds % 1000000000).toFloat / 1000000000

/-- Whole milliseconds that a wait of this duration takes. -/
def waitMilliseconds (duration : Duration) : Nat :=
  (duration.nanoseconds + 999999) / 1000000

/-- The duration as seconds with nine decimals. -/
def plainText (duration : Duration) : String :=
  placedDigits 9 duration.nanoseconds

/-- Writes `units / 10 ^ places` without trailing zero decimals. -/
def trimmed (places units : Nat) : String :=
  let fraction := (paddedDigits places (units % Nat.pow 10 places)).toList
  let kept := (fraction.reverse.dropWhile (· == '0')).reverse
  let whole := toString (units / Nat.pow 10 places)
  if kept.isEmpty then whole else whole ++ "." ++ String.ofList kept

/-- Writes a duration in the largest unit of which it holds at least one. -/
def unitText (duration : Duration) : String :=
  let count := duration.nanoseconds
  if 1000000000 ≤ count then trimmed 9 count ++ "s"
  else if 1000000 ≤ count then trimmed 6 count ++ "ms"
  else if 1000 ≤ count then trimmed 3 count ++ "µs"
  else toString count ++ "ns"

end Duration

end FlightGuard
