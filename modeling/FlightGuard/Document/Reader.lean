import FlightGuard.Document.Basic

/-!
# Reading texts into documents

The reader knows plain JSON: no comments, no trailing commas, no byte order mark, and four blank
characters.  It never fails; what it cannot read becomes a broken leaf or a cut ending of the
document.

Each function takes the characters that are left and gives back those that are still left after
its part, or `none` where reading has stopped for good.  The nesting is bounded by a fuel that
`Reading.ofText` takes from the length of the text.
-/

namespace FlightGuard

namespace Document

/-- The characters that may stand between any two parts of a text. -/
def isBlank (character : Char) : Bool :=
  character = ' ' || character = '\n' || character = '\t' || character = '\r'

/-- The text from its first character that is not blank. -/
def skipBlanks (input : List Char) : List Char :=
  input.dropWhile isBlank

/-! ## Words -/

/-- Matches the rest of a word; on failure says whether the text ended or went another way. -/
def matchWord : List Char → List Char → Except Fault (List Char)
  | [], input => .ok input
  | _ :: _, [] => .error .truncated
  | expected :: word, character :: input =>
      if expected = character then matchWord word input else .error .malformed

/-- Reads one of the words for `null`, `true` and `false` behind its first letter. -/
def readWord (word : String) (value : Document) (input : List Char) :
    Document × Option (List Char) :=
  match matchWord word.toList input with
  | .ok rest => (value, some rest)
  | .error fault => (.broken .word fault fault, none)

/-! ## Numbers -/

/-- The number that a sequence of decimal digits stands for, behind a number already read. -/
def digitsValue (start : Nat) (digits : List Char) : Nat :=
  digits.foldl (fun value digit => 10 * value + (digit.toNat - '0'.toNat)) start

/--
A number that breaks off: a reader that keeps it waits for more digits where the text ends, one
that skips it calls it malformed in either case.
-/
def brokenNumber (rest : List Char) : Document :=
  .broken .number (if rest.isEmpty then .truncated else .malformed) .malformed

/-- The sign in front of an exponent, if there is one, and what follows it. -/
def exponentSign : List Char → Bool × List Char
  | '-' :: rest => (true, rest)
  | '+' :: rest => (false, rest)
  | rest => (false, rest)

/-- Reads an exponent behind its letter: a sign or none, and at least one digit. -/
def readExponent (input : List Char) : Option Int × List Char :=
  let (negative, unsigned) := exponentSign input
  let digits := unsigned.takeWhile Char.isDigit
  let rest := unsigned.dropWhile Char.isDigit
  if digits.isEmpty then (none, rest)
  else
    let magnitude : Int := digitsValue 0 digits
    (some (if negative then -magnitude else magnitude), rest)

/-- Ends a number whose digits are known: reads an exponent if there is one. -/
def readScale (negative : Bool) (digits places : Nat) (whole : Bool) (input : List Char) :
    Document × Option (List Char) :=
  match input with
  | letter :: rest =>
      if letter = 'e' ∨ letter = 'E' then
        match readExponent rest with
        | (some exponent, rest) =>
            (.number ⟨⟨negative, digits, exponent - places⟩, false⟩, some rest)
        | (none, rest) => (brokenNumber rest, none)
      else (.number ⟨⟨negative, digits, -(places : Int)⟩, whole⟩, some input)
  | [] => (.number ⟨⟨negative, digits, -(places : Int)⟩, whole⟩, some [])

/-- Reads a number behind its sign. -/
def readMagnitude (negative : Bool) (input : List Char) : Document × Option (List Char) :=
  let leading := input.takeWhile Char.isDigit
  let rest := input.dropWhile Char.isDigit
  if leading.isEmpty then (brokenNumber rest, none)
  else if leading.head? = some '0' ∧ leading.length ≠ 1 then
    (.broken .number .malformed .malformed, none)
  else
    match rest with
    | '.' :: rest =>
        let fraction := rest.takeWhile Char.isDigit
        let rest := rest.dropWhile Char.isDigit
        if fraction.isEmpty then (brokenNumber rest, none)
        else
          readScale negative (digitsValue (digitsValue 0 leading) fraction) fraction.length false
            rest
    | rest => readScale negative (digitsValue 0 leading) 0 true rest

/-! ## Texts -/

/-- A part of a text: a character, or the number of an escape with four hexadecimal digits. -/
inductive TextUnit where
  | character (value : Char)
  | code (value : Nat)
deriving DecidableEq, Repr

/-- The value of a hexadecimal digit. -/
def hexDigit? (character : Char) : Option Nat :=
  if '0' ≤ character ∧ character ≤ '9' then some (character.toNat - '0'.toNat)
  else if 'a' ≤ character ∧ character ≤ 'f' then some (character.toNat - 'a'.toNat + 10)
  else if 'A' ≤ character ∧ character ≤ 'F' then some (character.toNat - 'A'.toNat + 10)
  else none

/-- The value of four hexadecimal digits. -/
def hexCode? (first second third fourth : Char) : Option Nat := do
  let first ← hexDigit? first
  let second ← hexDigit? second
  let third ← hexDigit? third
  let fourth ← hexDigit? fourth
  return ((first * 16 + second) * 16 + third) * 16 + fourth

/-- The character that a backslash and one letter stand for. -/
def shortEscape? (letter : Char) : Option Char :=
  if letter = '"' ∨ letter = '\\' ∨ letter = '/' then some letter
  else if letter = 'b' then some '\x08'
  else if letter = 'f' then some '\x0c'
  else if letter = 'n' then some '\n'
  else if letter = 'r' then some '\r'
  else if letter = 't' then some '\t'
  else none

/-- How many bytes characters take up in a file. -/
def byteCount (characters : List Char) : Nat :=
  characters.foldl (fun count character => count + character.utf8Size) 0

/--
The parts of a text behind its opening quote, and either what is left behind the closing quote
or the fault that ends the text.  An escape with fewer than four bytes left is truncated.
-/
def scanText : List Char → List TextUnit × Except Fault (List Char)
  | [] => ([], .error .truncated)
  | '"' :: rest => ([], .ok rest)
  | '\\' :: 'u' :: first :: second :: third :: fourth :: rest =>
      match hexCode? first second third fourth with
      | some value =>
          let (units, ending) := scanText rest
          (.code value :: units, ending)
      | none => ([], .error .malformed)
  | '\\' :: 'u' :: rest =>
      ([], .error (if byteCount rest < 4 then .truncated else .malformed))
  | '\\' :: letter :: rest =>
      match shortEscape? letter with
      | some value =>
          let (units, ending) := scanText rest
          (.character value :: units, ending)
      | none => ([], .error .malformed)
  | '\\' :: [] => ([], .error .truncated)
  | character :: rest =>
      if character.toNat < 32 then ([], .error .malformed)
      else
        let (units, ending) := scanText rest
        (.character character :: units, ending)

/-- Whether a code is the first half of a surrogate pair. -/
def isHighSurrogate (code : Nat) : Bool := 0xD800 ≤ code && code ≤ 0xDBFF

/-- Whether a code is the second half of a surrogate pair. -/
def isLowSurrogate (code : Nat) : Bool := 0xDC00 ≤ code && code ≤ 0xDFFF

/--
The characters of a text.  Two escapes that form a surrogate pair are one character, half a pair
is malformed, and a text that breaks off behind a first half keeps the fault it breaks off with.
-/
def joinUnits (ending : Option Fault) : List TextUnit → Except Fault (List Char)
  | [] => match ending with
      | some fault => .error fault
      | none => .ok []
  | .character value :: units => (joinUnits ending units).map (value :: ·)
  | .code high :: .code low :: units =>
      if isHighSurrogate high then
        if isLowSurrogate low then
          (joinUnits ending units).map
            (Char.ofNat (0x10000 + (high - 0xD800) * 0x400 + (low - 0xDC00)) :: ·)
        else .error .malformed
      else if isLowSurrogate high then .error .malformed
      else (joinUnits ending (.code low :: units)).map (Char.ofNat high :: ·)
  | .code value :: units =>
      if isHighSurrogate value then
        .error (if units.isEmpty then ending.getD .malformed else .malformed)
      else if isLowSurrogate value then .error .malformed
      else (joinUnits ending units).map (Char.ofNat value :: ·)

/-- Reads a text behind its opening quote. -/
def readText (input : List Char) : Document × Option (List Char) :=
  match scanText input with
  | (units, .ok rest) => (.text ((joinUnits none units).map String.ofList), some rest)
  | (units, .error fault) =>
      match joinUnits (some fault) units with
      | .error kept => (.broken .text kept fault, none)
      | .ok _ => (.broken .text fault fault, none)

/-! ## Values -/

mutual

/-- Reads one value. -/
def readValue : Nat → List Char → Document × Option (List Char)
  | 0, _ => (.absent .malformed, none)
  | fuel + 1, input =>
      match skipBlanks input with
      | [] => (.absent .truncated, none)
      | '"' :: rest => readText rest
      | '[' :: rest =>
          match skipBlanks rest with
          | ']' :: rest => (.list [] .closed, some rest)
          | [] => (.list [] (.cut .truncated), none)
          | rest =>
              let (items, ending, rest) := readItems fuel rest
              (.list items ending, rest)
      | '\x7b' :: rest =>
          match skipBlanks rest with
          | '\x7d' :: rest => (.object [] .closed, some rest)
          | [] => (.object [] (.cut .truncated), none)
          | rest =>
              let (members, ending, rest) := readMembers fuel rest
              (.object members ending, rest)
      | 'n' :: rest => readWord "ull" .null rest
      | 't' :: rest => readWord "rue" (.truth true) rest
      | 'f' :: rest => readWord "alse" (.truth false) rest
      | '-' :: rest => readMagnitude true rest
      | character :: rest =>
          if character.isDigit then readMagnitude false (character :: rest)
          else (.absent .malformed, none)

/-- Reads the items of a list that has at least one. -/
def readItems : Nat → List Char → List Document × Ending × Option (List Char)
  | 0, _ => ([], .cut .malformed, none)
  | fuel + 1, input =>
      match readValue fuel input with
      | (item, none) => ([item], .cut .malformed, none)
      | (item, some rest) =>
          match skipBlanks rest with
          | ',' :: rest =>
              let (items, ending, rest) := readItems fuel rest
              (item :: items, ending, rest)
          | ']' :: rest => ([item], .closed, some rest)
          | [] => ([item], .cut .truncated, none)
          | _ => ([item], .cut .malformed, none)

/--
Reads the members of an object that has at least one.  A member without its colon has an absent
value, and nothing is read behind a key that is not a text.
-/
def readMembers : Nat → List Char → List (Document × Document) × Ending × Option (List Char)
  | 0, _ => ([], .cut .malformed, none)
  | fuel + 1, input =>
      match readValue fuel input with
      | (.text key, some rest) =>
          match skipBlanks rest with
          | ':' :: rest =>
              match readValue fuel rest with
              | (value, none) => ([(.text key, value)], .cut .malformed, none)
              | (value, some rest) =>
                  match skipBlanks rest with
                  | ',' :: rest =>
                      let (members, ending, rest) := readMembers fuel rest
                      ((.text key, value) :: members, ending, rest)
                  | '\x7d' :: rest => ([(.text key, value)], .closed, some rest)
                  | [] => ([(.text key, value)], .cut .truncated, none)
                  | _ => ([(.text key, value)], .cut .malformed, none)
          | [] => ([(.text key, .absent .truncated)], .cut .truncated, none)
          | _ => ([(.text key, .absent .malformed)], .cut .malformed, none)
      | (key, _) => ([(key, .absent .malformed)], .cut .malformed, none)

end

end Document

/-- What a whole text gives: a document, and whether more than blanks stands behind it. -/
structure Reading where
  document : Document
  trailing : Bool

/-- Reads a whole text. -/
def Reading.ofText (text : String) : Reading :=
  let input := text.toList
  match Document.readValue (2 * input.length + 2) input with
  | (document, some rest) => ⟨document, !(Document.skipBlanks rest).isEmpty⟩
  | (document, none) => ⟨document, false⟩

end FlightGuard
