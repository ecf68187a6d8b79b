import FlightGuard.Number.Decimal

/-!
# Documents

A document is the tree that a JSON text stands for, as far as the text could be read.  Where the
text stops making sense the tree has a `broken` leaf or a `cut` ending, and nothing behind that
place is in the tree.  Whoever reads the tree from left to right therefore meets the problems of
the text in the order in which they stand there, next to the problems of a value of the wrong
shape.

Some problems show only to a reader that keeps a value: a lone surrogate in a text that is
skipped over does no harm.  A broken leaf carries both answers.
-/

namespace FlightGuard

/--
Why a text does not give a value: it is `malformed` at some place, it has a value of the wrong
shape there (`mismatch`), or it is `truncated`.
-/
inductive Fault where
  | malformed
  | mismatch
  | truncated
deriving DecidableEq, Repr

/-- The value of a number and whether it was written without fraction and exponent. -/
structure Numeral where
  value : Decimal
  whole : Bool
deriving DecidableEq, Repr

/-- What stood at the place of a broken leaf, judged by its first character. -/
inductive Part where
  | nothing
  | word
  | number
  | text
deriving DecidableEq, Repr

/-- How a list or an object ends: by its bracket, or because the text goes wrong there. -/
inductive Ending where
  | closed
  | cut (fault : Fault)
deriving DecidableEq, Repr

/-- The tree of a text; the key of a member is whatever stood at its place. -/
inductive Document where
  | null
  | truth (value : Bool)
  | number (value : Numeral)
  | text (content : Except Fault String)
  | list (items : List Document) (ending : Ending)
  | object (members : List (Document × Document)) (ending : Ending)
  | broken (part : Part) (kept skipped : Fault)

namespace Document

/-- A text without faults. -/
def ofString (content : String) : Document :=
  .text (.ok content)

/-- A leaf at which there is nothing to read, with the same answer for every reader. -/
def absent (fault : Fault) : Document :=
  .broken .nothing fault fault

/-- An object with the given members. -/
def ofMembers (members : List (String × Document)) : Document :=
  .object (members.map fun member => (ofString member.1, member.2)) .closed

end Document

end FlightGuard
