import FlightGuard.Landing.Classification

/-!
# Debounced landing classification

The debouncer turns the noisy classification of single frames into a stable signal.  It keeps the
latest twenty raw values and the value it emitted last.

A `canLand` frame makes the output `canLand` once a tenth of the window agrees, and otherwise
leaves the output as it is.  Any other frame keeps an emitted `canLand` while half of the window
is `canLand`, and otherwise passes through.  So the output becomes `canLand` only on a `canLand`
frame.
-/

namespace FlightGuard.Landing

/-- The window of raw values, oldest first, and the value emitted last. -/
structure Debouncer where
  window : List Classification
  emitted : Classification
deriving DecidableEq, Repr

namespace Debouncer

/-- How many raw values the window holds at most. -/
def capacity : Nat := 20

/-- The share of the window at which a `canLand` frame is believed. -/
def enterShare : Float32 := 0.1

/-- The share of the window at which an emitted `canLand` survives other frames. -/
def holdShare : Float32 := 0.5

/-- A debouncer that has seen nothing. -/
def empty : Debouncer := ⟨[], .unknown⟩

/-- How many values of a window are `canLand`. -/
def landableCount (window : List Classification) : Nat :=
  window.count .canLand

/-- The share of `canLand` values in a window, zero for an empty one, as a quotient of singles. -/
def landableShare (window : List Classification) : Float32 :=
  if window.isEmpty then 0
  else (landableCount window).toFloat32 / window.length.toFloat32

/-- The window after one more raw value: a full window gives up its oldest one. -/
def slide (window : List Classification) (raw : Classification) : List Classification :=
  (if window.length = capacity then window.tail else window) ++ [raw]

/-- What is emitted for a raw value, given the share of the window it was added to. -/
def emit (previous raw : Classification) (share : Float32) : Classification :=
  if raw = .canLand then
    if enterShare ≤ share then .canLand else previous
  else if previous = .canLand ∧ holdShare ≤ share then .canLand
  else raw

/-- Feeds one raw value; the output is the `emitted` value of the result. -/
def push (debouncer : Debouncer) (raw : Classification) : Debouncer :=
  let window := slide debouncer.window raw
  ⟨window, emit debouncer.emitted raw (landableShare window)⟩

end Debouncer

end FlightGuard.Landing
