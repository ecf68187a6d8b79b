import FlightGuard.Document.Decoder
import Mathlib.Tactic.Common

/-!
# What a record goes back to

A document gives values for the fields of a record: members with their names, or items at their
places.  A record is read by reading these entries one after another, and no field is given twice.
So what a field holds is what was given for it, or its default where nothing was given.

A decoder that gives a value has been through the whole document, and would have met a fault
anywhere in it (`IsThorough`).
-/

namespace FlightGuard

open Decoder

section

variable {Failure Value Result : Type}

theorem ok_bind (value : Value) (next : Value → Except Failure Result) :
    (Except.ok value >>= next) = next value :=
  rfl

theorem bind_eq_ok {first : Except Failure Value} {next : Value → Except Failure Result}
    {result : Result} :
    first >>= next = .ok result ↔ ∃ value, first = .ok value ∧ next value = .ok result := by
  cases first with
  | ok value =>
      constructor
      · exact fun given => ⟨value, rfl, given⟩
      · rintro ⟨_, same, given⟩
        cases same
        exact given
  | error failure =>
      constructor
      · exact nofun
      · rintro ⟨_, failed, _⟩
        cases failed

theorem map_eq_ok {first : Except Failure Value} {change : Value → Result} {result : Result} :
    first.map change = .ok result ↔ ∃ value, first = .ok value ∧ change value = result := by
  cases first with
  | ok value =>
      constructor
      · exact fun given => ⟨value, rfl, Except.ok.inj given⟩
      · rintro ⟨_, same, rfl⟩
        cases same
        rfl
  | error failure =>
      constructor
      · exact nofun
      · rintro ⟨_, failed, _⟩
        cases failed

end

/-! ## Finding by name -/

section

variable {Item : Type*} {nameOf : Item → String} {items : List Item}

theorem find?_eq_none_of_notMem {name : String} (absent : name ∉ items.map nameOf) :
    items.find? (nameOf · == name) = none := by
  rw [List.find?_eq_none]
  intro item member same
  exact absent (eq_of_beq same ▸ List.mem_map_of_mem member)

/-- Among items with different names each one is found by its name. -/
theorem find?_eq_some_of_mem (distinct : (items.map nameOf).Nodup) {item : Item}
    (listed : item ∈ items) : items.find? (nameOf · == nameOf item) = some item := by
  induction items with
  | nil => cases listed
  | cons first items induction =>
      rw [List.map_cons, List.nodup_cons] at distinct
      rcases List.mem_cons.mp listed with rfl | later
      · simp
      · have other : nameOf first ≠ nameOf item := fun same =>
          distinct.1 (same ▸ List.mem_map_of_mem later)
        rw [List.find?_cons_of_neg (by simpa using other)]
        exact induction distinct.2 later

end

/-! ## Entries -/

section

variable {Record Value : Type} {fields : List (RecordField Record)}

/-- The fields that a document gives, each with its value, in the order of the document. -/
def Document.entries (fields : List (RecordField Record)) :
    Document → List (RecordField Record × Document)
  | .object members _ => members.filterMap fun member =>
      (member.1.keyName.toOption.bind fun name => fields.find? (·.name == name)).map (·, member.2)
  | .list items _ => fields.zip items
  | _ => []

/-- What a document gives for the field with a name, if it gives anything. -/
def Document.given? (fields : List (RecordField Record)) (name : String) (document : Document) :
    Option Document :=
  ((document.entries fields).find? (·.1.name == name)).map Prod.snd

/-- Reads entries into a record one after another. -/
def readEntries (record : Record) (entries : List (RecordField Record × Document)) :
    Except Fault Record :=
  entries.foldlM (fun record entry => entry.1.read entry.2 record) record

theorem readEntries_cons (record : Record) (entry : RecordField Record × Document)
    (entries : List (RecordField Record × Document)) :
    readEntries record (entry :: entries) =
      entry.1.read entry.2 record >>= (readEntries · entries) :=
  List.foldlM_cons

/-- The known members of an object are read in their order, and none of them was given before. -/
theorem readEntries_of_fillMembers {ending : Ending} {seen : List String}
    {record result : Record} {members : List (Document × Document)}
    (filled : fillMembers fields ending seen record members = .ok result) :
    let entries := (Document.object members ending).entries fields
    readEntries record entries = .ok result
      ∧ (entries.map (·.1.name)).Nodup
      ∧ ∀ entry ∈ entries, entry.1.name ∉ seen := by
  induction members generalizing seen record with
  | nil =>
      obtain ⟨_, _, complete⟩ := bind_eq_ok.mp filled
      split at complete
      · cases complete
        exact ⟨rfl, List.nodup_nil, nofun⟩
      · cases complete
  | cons member members induction =>
      rcases member with ⟨key, value⟩
      obtain ⟨name, named, filled⟩ := bind_eq_ok.mp filled
      cases known : fields.find? (·.name == name) with
      | none =>
          have passed : (Document.object ((key, value) :: members) ending).entries fields =
              (Document.object members ending).entries fields := by
            simp [Document.entries, named, Except.toOption, known]
          rw [passed]
          rw [known] at filled
          obtain ⟨_, _, filled⟩ := bind_eq_ok.mp filled
          exact induction filled
      | some field =>
          have entered : (Document.object ((key, value) :: members) ending).entries fields =
              (field, value) :: (Document.object members ending).entries fields := by
            simp [Document.entries, named, Except.toOption, known]
          have same : field.name = name := by simpa using List.find?_some known
          simp only [known] at filled
          split at filled
          · cases filled
          next new =>
            obtain ⟨next, read, filled⟩ := bind_eq_ok.mp filled
            obtain ⟨rest, distinct, others⟩ := induction filled
            rw [entered]
            intro entries
            rw [readEntries_cons, List.map_cons, List.nodup_cons, List.forall_mem_cons]
            refine ⟨bind_eq_ok.mpr ⟨next, read, rest⟩, ⟨?_, distinct⟩, ?_, ?_⟩
            · intro repeated
              obtain ⟨entry, member, equal⟩ := List.mem_map.mp repeated
              exact others entry member (equal ▸ same ▸ List.mem_cons_self)
            · simpa [same] using new
            · exact fun entry member old => others entry member (List.mem_cons_of_mem _ old)

theorem readEntries_of_fillItems {ending : Ending} {record result : Record}
    {items : List Document} (filled : fillItems ending fields record items = .ok result) :
    readEntries record (fields.zip items) = .ok result := by
  induction items generalizing fields record with
  | nil =>
      cases fields with
      | nil =>
          obtain ⟨_, _, filled⟩ := bind_eq_ok.mp filled
          exact filled
      | cons field fields =>
          obtain ⟨_, _, complete⟩ := bind_eq_ok.mp filled
          split at complete
          · exact complete
          · cases complete
  | cons item items induction =>
      cases fields with
      | nil => cases filled
      | cons field fields =>
          obtain ⟨next, read, filled⟩ := bind_eq_ok.mp filled
          rw [List.zip_cons_cons, readEntries_cons]
          exact bind_eq_ok.mpr ⟨next, read, induction filled⟩

/-- A record is read by reading its entries, in which no field is given twice. -/
theorem readEntries_of_record {defaults result : Record} {document : Document}
    (distinct : (fields.map RecordField.name).Nodup)
    (decoded : record fields defaults document = .ok result) :
    readEntries defaults (document.entries fields) = .ok result
      ∧ ((document.entries fields).map (·.1.name)).Nodup := by
  cases document with
  | object members ending =>
      obtain ⟨read, once, _⟩ := readEntries_of_fillMembers decoded
      exact ⟨read, once⟩
  | list items ending =>
      refine ⟨readEntries_of_fillItems decoded, ?_⟩
      have front : (fields.zip items).map (·.1.name) <+: fields.map RecordField.name := by
        have taken : (fields.zip items).map Prod.fst =
            fields.take (min fields.length items.length) := by
          rw [List.zip_eq_zip_take_min, List.map_fst_zip (by simp)]
        have named : (fields.zip items).map (·.1.name) =
            ((fields.zip items).map Prod.fst).map RecordField.name := by
          rw [List.map_map]
          rfl
        rw [named, taken]
        exact (List.take_prefix _ _).map _
      exact distinct.sublist front.sublist
  | null | truth _ | number _ | text _ | broken _ _ _ => cases decoded

theorem mem_of_mem_entries {document : Document} {entry : RecordField Record × Document}
    (member : entry ∈ document.entries fields) : entry.1 ∈ fields := by
  cases document with
  | object members ending =>
      obtain ⟨_, _, found⟩ := List.mem_filterMap.mp member
      obtain ⟨field, known, rfl⟩ := Option.map_eq_some_iff.mp found
      obtain ⟨_, _, known⟩ := Option.bind_eq_some_iff.mp known
      exact List.mem_of_find?_eq_some known
  | list items ending => exact (List.of_mem_zip member).1
  | null | truth _ | number _ | text _ | broken _ _ _ => cases member

/-! ## The parts of a record -/

/--
A field fits a part of the record: if it has the name of the part then it is what the part holds
afterwards, and otherwise it leaves the part as it was.
-/
def Decoder.RecordField.Fits (name : String) (decoder : Decoder Value) (part : Record → Value)
    (field : RecordField Record) : Prop :=
  ∀ document record result, field.read document record = .ok result →
    (field.name = name → decoder document = .ok (part result))
      ∧ (field.name ≠ name → part result = part record)

theorem Decoder.RecordField.fits_of_put {name : String} {decoder : Decoder Value}
    {part : Record → Value} {put : Record → Value → Record}
    (held : ∀ record value, part (put record value) = value) :
    (RecordField.withDefault name decoder put).Fits name decoder part := by
  intro document record result read
  obtain ⟨value, decoded, rfl⟩ := map_eq_ok.mp read
  exact ⟨fun _ => (held record value).symm ▸ decoded, fun other => absurd rfl other⟩

theorem Decoder.RecordField.fits_of_ne {Other : Type} {name other : String}
    {decoder : Decoder Value} {part : Record → Value} {reader : Decoder Other}
    {put : Record → Other → Record}
    (apart : other ≠ name) (kept : ∀ record value, part (put record value) = part record) :
    (RecordField.withDefault other reader put).Fits name decoder part := by
  intro document record result read
  obtain ⟨value, _, rfl⟩ := map_eq_ok.mp read
  exact ⟨fun same => absurd same apart, fun _ => kept record value⟩

/-- What reading entries leaves in a part: the one entry for it, or what was there before. -/
theorem part_of_readEntries {name : String} {decoder : Decoder Value} {part : Record → Value}
    {entries : List (RecordField Record × Document)} {record result : Record}
    (fit : ∀ entry ∈ entries, entry.1.Fits name decoder part)
    (once : (entries.map (·.1.name)).Nodup) (read : readEntries record entries = .ok result) :
    (∃ entry, entries.find? (·.1.name == name) = some entry
        ∧ decoder entry.2 = .ok (part result))
      ∨ (entries.find? (·.1.name == name) = none ∧ part result = part record) := by
  induction entries generalizing record with
  | nil =>
      cases read
      exact Or.inr ⟨rfl, rfl⟩
  | cons entry entries induction =>
      obtain ⟨first, fit⟩ := List.forall_mem_cons.mp fit
      rw [List.map_cons, List.nodup_cons] at once
      rw [readEntries_cons] at read
      obtain ⟨next, now, later⟩ := bind_eq_ok.mp read
      have entered := first _ _ _ now
      by_cases named : entry.1.name = name
      · have found : (entry :: entries).find? (·.1.name == name) = some entry := by
          simp [named]
        refine Or.inl ⟨entry, found, ?_⟩
        -- No later entry is for this part, so it still holds what this one gave.
        have alone : entries.find? (·.1.name == name) = none :=
          find?_eq_none_of_notMem (named ▸ once.1)
        rcases induction fit once.2 later with ⟨_, repeated, _⟩ | ⟨_, kept⟩
        · rw [alone] at repeated
          cases repeated
        · rw [kept]
          exact entered.1 named
      · have passed : (entry :: entries).find? (·.1.name == name) =
            entries.find? (·.1.name == name) := by
          simp [named]
        rw [passed, ← entered.2 named]
        exact induction fit once.2 later

/-- A part of a record holds what the document gives for it, or else its default. -/
theorem part_of_record {name : String} {decoder : Decoder Value} {part : Record → Value}
    {defaults result : Record} {document : Document}
    (distinct : (fields.map RecordField.name).Nodup)
    (fit : ∀ field ∈ fields, field.Fits name decoder part)
    (decoded : record fields defaults document = .ok result) :
    (∃ given, document.given? fields name = some given ∧ decoder given = .ok (part result))
      ∨ (document.given? fields name = none ∧ part result = part defaults) := by
  obtain ⟨read, once⟩ := readEntries_of_record distinct decoded
  have fit : ∀ entry ∈ document.entries fields, entry.1.Fits name decoder part :=
    fun entry member => fit _ (mem_of_mem_entries member)
  rcases part_of_readEntries fit once read with ⟨entry, found, given⟩ | ⟨absent, kept⟩
  · exact Or.inl ⟨entry.2, by rw [Document.given?, found]; rfl, given⟩
  · exact Or.inr ⟨by rw [Document.given?, absent]; rfl, kept⟩

/-- What the defaults have and every field keeps is true of the whole record. -/
theorem Decoder.record_preserves (kept : Record → Prop) {defaults result : Record}
    {document : Document} (distinct : (fields.map RecordField.name).Nodup)
    (keeps : ∀ field ∈ fields, ∀ document record result,
      field.read document record = .ok result → kept record → kept result)
    (start : kept defaults) (decoded : record fields defaults document = .ok result) :
    kept result := by
  have given : ∀ entry ∈ document.entries fields, entry.1 ∈ fields :=
    fun _ member => mem_of_mem_entries member
  have read := (readEntries_of_record distinct decoded).1
  clear decoded
  generalize document.entries fields = entries at given read
  induction entries generalizing defaults with
  | nil =>
      cases read
      exact start
  | cons entry entries induction =>
      obtain ⟨first, given⟩ := List.forall_mem_cons.mp given
      rw [readEntries_cons] at read
      obtain ⟨next, now, later⟩ := bind_eq_ok.mp read
      exact induction (keeps _ first _ _ _ now start) given later

/-- A field keeps what every value that it can be given keeps. -/
theorem Decoder.withDefault_preserves {kept : Record → Prop} {name : String}
    {decoder : Decoder Value} {put : Record → Value → Record}
    (keeps : ∀ document value record, decoder document = .ok value → kept record →
      kept (put record value)) :
    ∀ document record result,
      (RecordField.withDefault name decoder put).read document record = .ok result →
        kept record → kept result := by
  intro document record result read start
  obtain ⟨value, decoded, rfl⟩ := map_eq_ok.mp read
  exact keeps document value record decoded start

end

/-! ## Thorough readers -/

namespace Decoder

/-- A value is only given if every part of the document is in order. -/
def IsThorough {Value : Type} (decoder : Decoder Value) : Prop :=
  ∀ document value, decoder document = .ok value → document.skip = .ok ()

/-- A field that is only read if all that it is given is in order. -/
def RecordField.IsThorough {Record : Type} (field : RecordField Record) : Prop :=
  ∀ document record result, field.read document record = .ok result → document.skip = .ok ()

/-! ### Scalars -/

section

variable [NumberReading]

theorem number_eq_ok_iff {Value : Type} {read : Numeral → Value} {document : Document}
    {value : Value} :
    number read document = .ok value ↔
      ∃ numeral, document = .number numeral ∧ (NumberReading.double numeral).isFinite = true
        ∧ read numeral = value := by
  constructor
  · intro decoded
    cases document with
    | number numeral =>
        rw [number, Document.isBeyondRange] at decoded
        split at decoded
        next => cases decoded
        next finite =>
          exact ⟨numeral, rfl, by simpa using finite, Except.ok.inj decoded⟩
    | null | truth _ | text _ | list _ _ | object _ _ | broken _ _ _ => cases decoded
  · rintro ⟨numeral, rfl, finite, rfl⟩
    rw [number, Document.isBeyondRange, finite]
    rfl

theorem double_isFinite {document : Document} {value : Float}
    (decoded : double document = .ok value) : value.isFinite = true := by
  obtain ⟨numeral, _, finite, rfl⟩ := number_eq_ok_iff.mp decoded
  exact finite

theorem truth_isThorough : truth.IsThorough := by
  intro document value decoded
  cases document with
  | truth value => rfl
  | null | number _ | text _ | list _ _ | object _ _ | broken _ _ _ => cases decoded

theorem number_isThorough {Value : Type} (read : Numeral → Value) :
    (number read).IsThorough := by
  intro document value decoded
  obtain ⟨numeral, rfl, _⟩ := number_eq_ok_iff.mp decoded
  rfl

theorem double_isThorough : double.IsThorough :=
  number_isThorough _

theorem single_isThorough : single.IsThorough :=
  number_isThorough _

theorem text_isThorough : text.IsThorough := by
  intro document value decoded
  cases document with
  | text content => rfl
  | null | truth _ | number _ | list _ _ | object _ _ | broken _ _ _ => cases decoded

theorem natural_isThorough (bound : Nat) : (natural bound).IsThorough := by
  intro document value decoded
  cases document with
  | number numeral => rfl
  | null | truth _ | text _ | list _ _ | object _ _ | broken _ _ _ => cases decoded

end

/-! ### Parts -/

variable {Record Value : Type}

theorem optional_isThorough {decoder : Decoder Value} (thorough : decoder.IsThorough) :
    (optional decoder).IsThorough := by
  intro document value decoded
  cases document with
  | null => rfl
  | truth _ | number _ | text _ | list _ _ | object _ _ | broken _ _ _ =>
      obtain ⟨held, read, _⟩ := map_eq_ok.mp decoded
      exact thorough _ held read

theorem listOf_isThorough {decoder : Decoder Value} (thorough : decoder.IsThorough) :
    (listOf decoder).IsThorough := by
  intro document values decoded
  cases document with
  | list items ending =>
      change collect decoder ending items = .ok values at decoded
      change Document.skipItems ending items = .ok ()
      induction items generalizing values with
      | nil =>
          obtain ⟨_, finished, _⟩ := bind_eq_ok.mp decoded
          exact finished
      | cons item items induction =>
          obtain ⟨value, read, rest⟩ := bind_eq_ok.mp decoded
          obtain ⟨others, given, _⟩ := bind_eq_ok.mp rest
          exact bind_eq_ok.mpr ⟨(), thorough _ _ read, induction _ given⟩
  | null | truth _ | number _ | text _ | object _ _ | broken _ _ _ => cases decoded

theorem exactly_isThorough (count : Nat) {decoder : Decoder Value} (thorough : decoder.IsThorough) :
    (exactly count decoder).IsThorough := by
  intro document values decoded
  cases document with
  | list items ending =>
      change collectExactly decoder ending count items = .ok values at decoded
      change Document.skipItems ending items = .ok ()
      induction items generalizing count with
      | nil =>
          cases count with
          | zero =>
              obtain ⟨_, finished, _⟩ := bind_eq_ok.mp decoded
              exact finished
          | succ count =>
              obtain ⟨_, _, short⟩ := bind_eq_ok.mp decoded
              cases short
      | cons item items induction =>
          cases count with
          | zero => cases decoded
          | succ count =>
              obtain ⟨value, read, rest⟩ := bind_eq_ok.mp decoded
              obtain ⟨others, given, _⟩ := bind_eq_ok.mp rest
              exact bind_eq_ok.mpr ⟨(), thorough _ _ read, induction _ _ given⟩
  | null | truth _ | number _ | text _ | object _ _ | broken _ _ _ => cases decoded

theorem choice_isThorough (names : List (String × Value)) (fallback : Option Value) :
    (choice names fallback).IsThorough := by
  intro document value decoded
  cases document with
  | text content => rfl
  | object members ending =>
      cases members with
      | nil => cases ending <;> cases decoded
      | cons member members =>
          rcases member with ⟨key, given⟩
          obtain ⟨name, named, chosen⟩ := bind_eq_ok.mp decoded
          obtain ⟨_, _, valued⟩ := bind_eq_ok.mp chosen
          obtain ⟨_, nothing, finished⟩ := bind_eq_ok.mp valued
          cases key with
          | text content =>
              cases given with
              | null =>
                  cases members with
                  | cons other members => cases finished
                  | nil =>
                      obtain ⟨_, closed, _⟩ := bind_eq_ok.mp finished
                      cases ending with
                      | closed => rfl
                      | cut fault => cases closed
              | truth _ | number _ | text _ | list _ _ | object _ _ | broken _ _ _ =>
                  cases nothing
          | null | truth _ | number _ | list _ _ | object _ _ | broken _ _ _ => cases named
  | broken part kept skipped => cases part <;> cases decoded
  | null | truth _ | number _ | list _ _ => cases decoded

theorem withDefault_isThorough {name : String} {decoder : Decoder Value}
    {put : Record → Value → Record} (thorough : decoder.IsThorough) :
    (RecordField.withDefault name decoder put).IsThorough := by
  intro document record result read
  obtain ⟨value, decoded, _⟩ := map_eq_ok.mp read
  exact thorough document value decoded

variable {fields : List (RecordField Record)}

theorem skipMembers_of_fillMembers (thorough : ∀ field ∈ fields, field.IsThorough)
    {ending : Ending} {seen : List String} {record result : Record}
    {members : List (Document × Document)}
    (filled : fillMembers fields ending seen record members = .ok result) :
    Document.skipMembers ending members = .ok () := by
  induction members generalizing seen record with
  | nil =>
      obtain ⟨_, closed, _⟩ := bind_eq_ok.mp filled
      cases ending with
      | closed => rfl
      | cut fault => cases closed
  | cons member members induction =>
      rcases member with ⟨key, value⟩
      obtain ⟨name, named, filled⟩ := bind_eq_ok.mp filled
      have whole : value.skip = .ok () ∧ Document.skipMembers ending members = .ok () := by
        cases known : fields.find? (·.name == name) with
        | none =>
            rw [known] at filled
            obtain ⟨_, skipped, filled⟩ := bind_eq_ok.mp filled
            exact ⟨skipped, induction filled⟩
        | some field =>
            simp only [known] at filled
            split at filled
            · cases filled
            · obtain ⟨_, read, filled⟩ := bind_eq_ok.mp filled
              exact ⟨thorough field (List.mem_of_find?_eq_some known) _ _ _ read,
                induction filled⟩
      cases key with
      | text content => exact bind_eq_ok.mpr ⟨(), whole⟩
      | broken part kept skipped => cases part <;> cases named
      | null | truth _ | number _ | list _ _ | object _ _ => cases named

theorem skipItems_of_fillItems (thorough : ∀ field ∈ fields, field.IsThorough) {ending : Ending}
    {record result : Record} {items : List Document}
    (filled : fillItems ending fields record items = .ok result) :
    Document.skipItems ending items = .ok () := by
  induction items generalizing fields record with
  | nil =>
      have closed : finish ending = .ok () := by
        cases fields with
        | nil =>
            obtain ⟨_, closed, _⟩ := bind_eq_ok.mp filled
            exact closed
        | cons field fields =>
            obtain ⟨_, closed, _⟩ := bind_eq_ok.mp filled
            exact closed
      cases ending with
      | closed => rfl
      | cut fault => cases closed
  | cons item items induction =>
      cases fields with
      | nil => cases filled
      | cons field fields =>
          obtain ⟨first, thorough⟩ := List.forall_mem_cons.mp thorough
          obtain ⟨_, read, filled⟩ := bind_eq_ok.mp filled
          exact bind_eq_ok.mpr ⟨(), first _ _ _ read, induction thorough filled⟩

/-- A record of fields that are read thoroughly is read thoroughly. -/
theorem record_isThorough (thorough : ∀ field ∈ fields, field.IsThorough) (defaults : Record) :
    (record fields defaults).IsThorough := by
  intro document value decoded
  cases document with
  | object members ending => exact skipMembers_of_fillMembers thorough decoded
  | list items ending => exact skipItems_of_fillItems thorough decoded
  | null | truth _ | number _ | text _ | broken _ _ _ => cases decoded

/-! ## Whole texts -/

/-- A text gives the value of its document if nothing stands behind it. -/
theorem ofText_eq_ok_iff {decoder : Decoder Value} {text : String} {value : Value} :
    decoder.ofText text = .ok value ↔
      decoder (Reading.ofText text).document = .ok value
        ∧ (Reading.ofText text).trailing = false := by
  rw [ofText, bind_eq_ok]
  cases (Reading.ofText text).trailing with
  | false => simp [pure, Except.pure]
  | true => simp

end Decoder

end FlightGuard
