import FlightGuard.Document.Numeral
import FlightGuard.Document.Reader

/-!
# Reading values out of documents

A decoder takes a value of one shape out of a document, or says which fault comes first when the
text is read from left to right.  A decoder of a scalar keeps the value; `skip` only looks at its
form.

A record is an object whose known members are its fields, or the list of its fields in order.
Unknown members are skipped.  A field that is missing keeps its default, unless it is required.

How numerals are read is left to a `NumberReading`.
-/

namespace FlightGuard

variable [NumberReading]

/-- A reader of values of one type. -/
abbrev Decoder (Value : Type) := Document → Except Fault Value

namespace Document

/-- Whether a number is beyond the range of doubles. -/
def isBeyondRange (numeral : Numeral) : Bool :=
  !(NumberReading.double numeral).isFinite

/-- The answer to a value of another shape than the wanted one. -/
def refusal : Document → Fault
  | .number value => if isBeyondRange value then .malformed else .mismatch
  | .text (.error fault) => fault
  | .broken _ kept _ => kept
  | _ => .mismatch

mutual

/-- Passes over a value of any shape. -/
def skip : Document → Except Fault Unit
  | .list items ending => skipItems ending items
  | .object members ending => skipMembers ending members
  | .broken _ _ fault => .error fault
  | _ => .ok ()

/-- Passes over the items of a list and its end. -/
def skipItems (ending : Ending) : List Document → Except Fault Unit
  | [] => match ending with
      | .closed => .ok ()
      | .cut fault => .error fault
  | item :: items => do
      skip item
      skipItems ending items

/-- Passes over the members of an object and its end; every key is a text. -/
def skipMembers (ending : Ending) : List (Document × Document) → Except Fault Unit
  | [] => match ending with
      | .closed => .ok ()
      | .cut fault => .error fault
  | (key, value) :: members =>
      match key with
      | .text _ => do
          skip value
          skipMembers ending members
      | .broken .nothing _ fault => .error fault
      | .broken .text _ fault => .error fault
      | _ => .error .malformed

end

/-- The name that a key gives to a member. -/
def keyName : Document → Except Fault String
  | .text content => content
  | .broken .nothing fault _ => .error fault
  | .broken .text fault _ => .error fault
  | _ => .error .malformed

end Document

namespace Decoder

open Document

/-- Passes on the end of a list or an object. -/
def finish : Ending → Except Fault Unit
  | .closed => .ok ()
  | .cut fault => .error fault

/-! ## Scalars -/

/-- A truth value. -/
def truth : Decoder Bool
  | .truth value => .ok value
  | document => .error document.refusal

/-- A text. -/
def text : Decoder String
  | .text content => content
  | document => .error document.refusal

/-- A number within the range of doubles. -/
def number {Value : Type} (read : Numeral → Value) : Decoder Value
  | .number numeral =>
      if isBeyondRange numeral then .error .malformed else .ok (read numeral)
  | document => .error document.refusal

/-- A number as a double. -/
def double : Decoder Float :=
  number NumberReading.double

/-- A number as a single. -/
def single : Decoder Float32 :=
  number NumberReading.single

/-- A natural number below a bound, written without sign, fraction and exponent. -/
def natural (bound : Nat) : Decoder Nat
  | .number numeral =>
      if isBeyondRange numeral then .error .malformed
      else if numeral.whole ∧ ¬ numeral.value.negative ∧ numeral.value.digits < bound then
        .ok numeral.value.digits
      else .error .mismatch
  | document => .error document.refusal

/-- A value that may be `null`. -/
def optional {Value : Type} (decoder : Decoder Value) : Decoder (Option Value)
  | .null => .ok none
  | document => (decoder document).map some

/-! ## Lists -/

/-- Takes values out of items one after another, then passes on the end of the list. -/
def collect {Value : Type} (decoder : Decoder Value) (ending : Ending) :
    List Document → Except Fault (List Value)
  | [] => do
      finish ending
      return []
  | item :: items => do
      let value ← decoder item
      let values ← collect decoder ending items
      return value :: values

/-- A list of any length. -/
def listOf {Value : Type} (decoder : Decoder Value) : Decoder (List Value)
  | .list items ending => collect decoder ending items
  | document => .error document.refusal

/-- Takes a number of values out of items; an item too many is malformed, one too few a mismatch. -/
def collectExactly {Value : Type} (decoder : Decoder Value) (ending : Ending) :
    (count : Nat) → List Document → Except Fault (Vector Value count)
  | 0, [] => do
      finish ending
      return #v[]
  | 0, _ :: _ => .error .malformed
  | _ + 1, [] => do
      finish ending
      .error .mismatch
  | count + 1, item :: items => do
      let value ← decoder item
      let values ← collectExactly decoder ending count items
      return values.insertIdx 0 value

/-- A list of one fixed length. -/
def exactly {Value : Type} (count : Nat) (decoder : Decoder Value) : Decoder (Vector Value count)
  | .list items ending => collectExactly decoder ending count items
  | document => .error document.refusal

/-! ## Choices -/

/-- The value of a name, or the fallback of the choice, if it has one. -/
def choose {Value : Type} (names : List (String × Value)) (fallback : Option Value)
    (name : String) : Except Fault Value :=
  match (names.lookup name).or fallback with
  | some value => .ok value
  | none => .error .mismatch

/-- A value that must be `null`. -/
def nothing : Decoder Unit
  | .null => .ok ()
  | document => .error document.refusal

/--
One of a set of names, written as a text or as an object with the name as its only key and
`null` as the value; a value of any other shape is malformed here.
-/
def choice {Value : Type} (names : List (String × Value)) (fallback : Option Value) :
    Decoder Value
  | .text content => do
      choose names fallback (← content)
  | .object ((key, value) :: members) ending => do
      let chosen ← choose names fallback (← text key)
      nothing value
      if members.isEmpty then
        finish ending
        return chosen
      else .error .malformed
  | .object [] (.cut fault) => .error fault
  | .broken .nothing fault _ => .error fault
  | .broken .text fault _ => .error fault
  | _ => .error .malformed

/-! ## Records -/

/-- A field of a record: its name, whether it must be given, and how it enters the record. -/
structure RecordField (Record : Type) where
  name : String
  required : Bool
  read : Document → Record → Except Fault Record

/-- A field that keeps its default when it is missing. -/
def RecordField.withDefault {Record Value : Type} (name : String) (decoder : Decoder Value)
    (put : Record → Value → Record) : RecordField Record :=
  ⟨name, false, fun document record => (decoder document).map (put record)⟩

/-- A field that must be given. -/
def RecordField.mandatory {Record Value : Type} (name : String) (decoder : Decoder Value)
    (put : Record → Value → Record) : RecordField Record :=
  ⟨name, true, fun document record => (decoder document).map (put record)⟩

/-- Reads the members of an object into a record; `seen` are the fields already given. -/
def fillMembers {Record : Type} (fields : List (RecordField Record)) (ending : Ending) :
    List String → Record → List (Document × Document) → Except Fault Record
  | seen, record, [] => do
      finish ending
      if fields.all fun field => !field.required || seen.contains field.name then return record
      else .error .mismatch
  | seen, record, (key, value) :: members => do
      let name ← key.keyName
      match fields.find? (·.name == name) with
      | none =>
          value.skip
          fillMembers fields ending seen record members
      | some field =>
          if seen.contains name then .error .mismatch
          else
            let record ← field.read value record
            fillMembers fields ending (name :: seen) record members

/-- Reads the items of a list into the fields in their order. -/
def fillItems {Record : Type} (ending : Ending) :
    List (RecordField Record) → Record → List Document → Except Fault Record
  | [], record, [] => do
      finish ending
      return record
  | [], _, _ :: _ => .error .malformed
  | fields, record, [] => do
      finish ending
      if fields.all fun field => !field.required then return record
      else .error .mismatch
  | field :: fields, record, item :: items => do
      let record ← field.read item record
      fillItems ending fields record items

/-- A record, starting from the values that missing fields keep. -/
def record {Record : Type} (fields : List (RecordField Record)) (defaults : Record) :
    Decoder Record
  | .object members ending => fillMembers fields ending [] defaults members
  | .list items ending => fillItems ending fields defaults items
  | document => .error document.refusal

/-- Reads a whole text, behind whose value nothing but blanks may stand. -/
def ofText {Value : Type} (decoder : Decoder Value) (text : String) : Except Fault Value := do
  let reading := Reading.ofText text
  let value ← decoder reading.document
  if reading.trailing then .error .malformed
  else return value

end Decoder

end FlightGuard
