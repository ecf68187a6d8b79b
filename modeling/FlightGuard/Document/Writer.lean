import FlightGuard.Number.Binary

/-!
# Writing documents

What is written is a `Content`: the tree of a document in which the numbers are still numbers.  How
a finite number is written is a matter of whoever writes the format, and a `NumberWriting` says it.
A number that is not finite has no text and is written as `null`.

Texts stand in quotes, with the short escapes of the format where there is one and numbered escapes
for the other control characters.
-/

namespace FlightGuard

/-- A number of one of the two formats. -/
inductive Number where
  | double (value : Float)
  | single (value : Float32)
deriving DecidableEq

/-- Whether a number is finite. -/
def Number.isFinite : Number → Bool
  | .double value => value.isFinite
  | .single value => value.isFinite

/-- How finite numbers are written. -/
structure NumberWriting where
  double : Float → String
  single : Float32 → String

namespace NumberWriting

/-- The text of a finite number. -/
def finiteText (numbers : NumberWriting) : Number → String
  | .double value => numbers.double value
  | .single value => numbers.single value

/-- The text of a number. -/
def text (numbers : NumberWriting) (number : Number) : String :=
  if number.isFinite then numbers.finiteText number else "null"

end NumberWriting

/-- What is written: truth values, numbers, words, and records with a name for each part. -/
inductive Content where
  | truth (value : Bool)
  | number (value : Number)
  | word (content : String)
  | record (members : List (String × Content))

namespace Content

/-- A double among the contents. -/
def double (value : Float) : Content :=
  .number (.double value)

/-- A single among the contents. -/
def single (value : Float32) : Content :=
  .number (.single value)

/-! ## Texts -/

/-- One hexadecimal digit. -/
def hexDigit (value : Nat) : Char :=
  (Nat.toDigits 16 value).headD '0'

/-- The letter behind the backslash of a short escape. -/
def shortLetter? (character : Char) : Option Char :=
  if character = '"' ∨ character = '\\' then some character
  else if character = '\x08' then some 'b'
  else if character = '\x0c' then some 'f'
  else if character = '\n' then some 'n'
  else if character = '\r' then some 'r'
  else if character = '\t' then some 't'
  else none

/-- A character of a text as it is written between quotes. -/
def escaped (character : Char) : List Char :=
  match shortLetter? character with
  | some letter => ['\\', letter]
  | none =>
      if character.toNat < 32 then
        ['\\', 'u', '0', '0', hexDigit (character.toNat / 16), hexDigit (character.toNat % 16)]
      else [character]

/-- A text in quotes. -/
def quoted (content : String) : List Char :=
  '"' :: content.toList.flatMap escaped ++ ['"']

/-! ## Trees -/

mutual

/-- The characters of a content. -/
def write (numbers : NumberWriting) : Content → List Char
  | .truth value => (if value then "true" else "false").toList
  | .number value => (numbers.text value).toList
  | .word content => quoted content
  | .record members => '\x7b' :: writeMembers numbers members

/-- The members of a record with commas between them and the closing brace. -/
def writeMembers (numbers : NumberWriting) : List (String × Content) → List Char
  | [] => ['\x7d']
  | [(name, content)] => quoted name ++ ':' :: (write numbers content ++ ['\x7d'])
  | (name, content) :: members =>
      quoted name ++ ':' :: (write numbers content ++ ',' :: writeMembers numbers members)

end

/-- The text of a content. -/
def toText (content : Content) (numbers : NumberWriting) : String :=
  String.ofList (content.write numbers)

end Content

end FlightGuard
