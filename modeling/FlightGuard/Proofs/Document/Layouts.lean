import FlightGuard.Proofs.Document.Records
import Mathlib.Data.List.Pairwise
import Mathlib.Data.List.Nodup

/-!
# Records of independent parts

A record that is read from a document consists of parts that can be set one by one, each by the
field with its name.  A layout lists these parts with their readers.  Since setting one part leaves
the others alone, the members of an object may come in any order, unknown members make no
difference, and what is given for one part can be exchanged without any effect on the others.

The form of a value is its reader together with where in it the records stand and what becomes of
the value when the member at some place is missing.
-/

namespace FlightGuard

open Decoder

theorem Document.ofString_injective : Function.Injective Document.ofString := by
  intro first second same
  exact Except.ok.inj (Document.text.inj same)

/-! ## Forms and layouts -/

/-- One step into a value: to the part with a name, or to the item with a number. -/
inductive Place where
  | member (name : String)
  | item (index : Nat)
deriving DecidableEq, Repr

/-- Where in a value the records stand, with the names of their parts and which must be given. -/
inductive Shape where
  | plain
  | listOf (item : Shape)
  | record (required : List String) (members : List (String × Shape))

/-- No part of any record in the value is required. -/
inductive Shape.IsLenient : Shape → Prop where
  | plain : IsLenient .plain
  | listOf {item : Shape} (inner : IsLenient item) : IsLenient (.listOf item)
  | record {members : List (String × Shape)} (each : ∀ member ∈ members, IsLenient member.2) :
      IsLenient (.record [] members)

/--
How a value is read, where in it the records stand, and what it becomes when, in the record at a
place, the part with a name goes back to its default.
-/
structure Form (Value : Type) where
  decoder : Decoder Value
  shape : Shape
  reset : List Place → String → Value → Value

/-- A part of a record: the field that gives it, and how it is looked up and set. -/
structure Slot (Record : Type) where
  name : String
  required : Bool
  {Value : Type}
  form : Form Value
  get : Record → Value
  put : Record → Value → Record
  get_put : ∀ record value, get (put record value) = value
  put_get : ∀ record, put record (get record) = record
  put_put : ∀ record first second, put (put record first) second = put record second

namespace Slot

variable {Record Value : Type}

/-- A part that keeps its default when it is not given. -/
def withDefault (name : String) (form : Form Value) (get : Record → Value)
    (put : Record → Value → Record)
    (get_put : ∀ record value, get (put record value) = value := by exact fun _ _ => rfl)
    (put_get : ∀ record, put record (get record) = record := by exact fun _ => rfl)
    (put_put : ∀ record first second, put (put record first) second = put record second := by
      exact fun _ _ _ => rfl) : Slot Record :=
  ⟨name, false, form, get, put, get_put, put_get, put_put⟩

/-- A part that must be given. -/
def mandatory (name : String) (form : Form Value) (get : Record → Value)
    (put : Record → Value → Record)
    (get_put : ∀ record value, get (put record value) = value := by exact fun _ _ => rfl)
    (put_get : ∀ record, put record (get record) = record := by exact fun _ => rfl)
    (put_put : ∀ record first second, put (put record first) second = put record second := by
      exact fun _ _ _ => rfl) : Slot Record :=
  ⟨name, true, form, get, put, get_put, put_get, put_put⟩

/-- The field that gives the part. -/
def field (slot : Slot Record) : RecordField Record :=
  ⟨slot.name, slot.required, fun document record =>
    (slot.form.decoder document).map (slot.put record)⟩

/-- It makes no difference which of two parts is set first. -/
def Apart (first second : Slot Record) : Prop :=
  ∀ record value other,
    second.put (first.put record value) other = first.put (second.put record other) value

instance : Std.Symm (@Apart Record) :=
  ⟨fun _ _ apart record value other => (apart record other value).symm⟩

/-- Setting one part leaves the other as it is. -/
theorem Apart.get_put {first second : Slot Record} (apart : first.Apart second) (record : Record)
    (value : first.Value) : second.get (first.put record value) = second.get record := by
  have unset := apart record value (second.get record)
  rw [second.put_get] at unset
  rw [← unset, second.get_put]

end Slot

/-- The parts of a record and the values that they have by default. -/
structure Layout (Record : Type) where
  slots : List (Slot Record)
  defaults : Record
  distinct : (slots.map Slot.name).Nodup
  apart : slots.Pairwise Slot.Apart

namespace Layout

variable {Record : Type} (layout : Layout Record)

/-- The fields of the record. -/
def fields : List (RecordField Record) :=
  layout.slots.map Slot.field

/-- The names of the fields. -/
def names : List String :=
  layout.slots.map Slot.name

/-- Reads the record. -/
def decoder : Decoder Record :=
  record layout.fields layout.defaults

/-- The names of the fields and the shapes of what they give. -/
def shape : Shape :=
  .record ((layout.slots.filter Slot.required).map Slot.name)
    (layout.slots.map fun slot => (slot.name, slot.form.shape))

/-- Sets a part back to its default, in the record itself or in the one at a place within it. -/
def reset : List Place → String → Record → Record
  | [], name, record =>
      match layout.slots.find? (·.name == name) with
      | some slot => slot.put record (slot.get layout.defaults)
      | none => record
  | .member part :: path, name, record =>
      match layout.slots.find? (·.name == part) with
      | some slot => slot.put record (slot.form.reset path name (slot.get record))
      | none => record
  | .item _ :: _, _, record => record

/-- The form of the record. -/
def form : Form Record :=
  ⟨layout.decoder, layout.shape, layout.reset⟩

variable {layout} {slot : Slot Record}

theorem find?_slots (listed : slot ∈ layout.slots) :
    layout.slots.find? (·.name == slot.name) = some slot :=
  find?_eq_some_of_mem layout.distinct listed

theorem find?_fields (listed : slot ∈ layout.slots) :
    layout.fields.find? (·.name == slot.name) = some slot.field := by
  rw [fields, List.find?_map]
  change Option.map Slot.field (layout.slots.find? (·.name == slot.name)) = _
  rw [find?_slots listed]
  rfl

theorem find?_fields_eq_none {name : String} (unknown : name ∉ layout.names) :
    layout.fields.find? (·.name == name) = none := by
  have absent : name ∉ layout.fields.map RecordField.name := by
    rw [fields, List.map_map]
    exact unknown
  exact find?_eq_none_of_notMem absent

/-- Two parts with different names are independent of each other. -/
theorem apart_of_ne {other : Slot Record} (listed : slot ∈ layout.slots)
    (listed' : other ∈ layout.slots) (differ : slot.name ≠ other.name) : slot.Apart other :=
  layout.apart.forall listed listed' fun same => differ (congrArg Slot.name same)

theorem shape_isLenient
    (lenient : ∀ slot ∈ layout.slots, slot.required = false ∧ slot.form.shape.IsLenient) :
    layout.shape.IsLenient := by
  have required : layout.slots.filter Slot.required = [] := by
    rw [List.filter_eq_nil_iff]
    intro slot listed needed
    rw [(lenient slot listed).1] at needed
    cases needed
  rw [shape, required]
  refine Shape.IsLenient.record ?_
  intro member listed
  obtain ⟨slot, given, rfl⟩ := List.mem_map.mp listed
  exact (lenient slot given).2

/-! ## One member -/

section

variable {ending : Ending} {seen : List String} {record result : Record}
  {member : Document × Document} {members : List (Document × Document)}

/-- The member has an unknown name and nothing in it is at fault. -/
def Passes (layout : Layout Record) (member : Document × Document) : Prop :=
  (∃ name, member.1 = .ofString name ∧ name ∉ layout.names) ∧ member.2.skip = .ok ()

/-- The member gives a part of the record. -/
structure Enters (layout : Layout Record) (member : Document × Document) (slot : Slot Record)
    (value : slot.Value) : Prop where
  listed : slot ∈ layout.slots
  named : member.1 = .ofString slot.name
  decoded : slot.form.decoder member.2 = .ok value

theorem fill_of_known {value : Document} (listed : slot ∈ layout.slots) :
    fillMembers layout.fields ending seen record ((.ofString slot.name, value) :: members) =
      if seen.contains slot.name then .error .mismatch
      else (slot.form.decoder value).map (slot.put record) >>= fun next =>
        fillMembers layout.fields ending (slot.name :: seen) next members := by
  rw [fillMembers, Document.ofString, Document.keyName, ok_bind, find?_fields listed]
  rfl

theorem fill_of_passes (passes : layout.Passes member) :
    fillMembers layout.fields ending seen record (member :: members) =
      fillMembers layout.fields ending seen record members := by
  rcases member with ⟨key, value⟩
  obtain ⟨⟨name, rfl, unknown⟩, skipped⟩ := passes
  simp only [fillMembers, Document.ofString, Document.keyName, ok_bind,
    find?_fields_eq_none unknown]
  rw [skipped, ok_bind]

theorem fill_of_enters {value : slot.Value} (enters : layout.Enters member slot value)
    (new : slot.name ∉ seen) :
    fillMembers layout.fields ending seen record (member :: members) =
      fillMembers layout.fields ending (slot.name :: seen) (slot.put record value) members := by
  rcases member with ⟨key, given⟩
  obtain ⟨listed, rfl, decoded⟩ := enters
  rw [fill_of_known listed, if_neg (by simpa using new), decoded]
  rfl

/-- What is read for a known name is a value of its part, which was not given before. -/
theorem exists_of_fill_known {value : Document} (listed : slot ∈ layout.slots)
    (filled : fillMembers layout.fields ending seen record
      ((.ofString slot.name, value) :: members) = .ok result) :
    slot.name ∉ seen ∧ ∃ held, slot.form.decoder value = .ok held
      ∧ fillMembers layout.fields ending (slot.name :: seen) (slot.put record held) members =
        .ok result := by
  rw [fill_of_known listed] at filled
  split at filled
  next => cases filled
  next new =>
    obtain ⟨_, read, filled⟩ := bind_eq_ok.mp filled
    obtain ⟨held, decoded, rfl⟩ := map_eq_ok.mp read
    exact ⟨by simpa using new, held, decoded, filled⟩

/-- A member that is read is either passed over or gives a part that was not given before. -/
theorem passes_or_enters
    (filled : fillMembers layout.fields ending seen record (member :: members) = .ok result) :
    layout.Passes member
      ∨ ∃ slot value, layout.Enters member slot value ∧ slot.name ∉ seen := by
  rcases member with ⟨key, given⟩
  obtain ⟨name, named, _⟩ := bind_eq_ok.mp filled
  have key_eq : key = .ofString name := by
    cases key with
    | text content => exact congrArg Document.text named
    | broken part kept skipped => cases part <;> cases named
    | null | truth _ | number _ | list _ _ | object _ _ => cases named
  subst key_eq
  by_cases known : name ∈ layout.names
  · obtain ⟨slot, listed, rfl⟩ := List.mem_map.mp known
    obtain ⟨new, held, decoded, _⟩ := exists_of_fill_known listed filled
    exact Or.inr ⟨slot, held, ⟨listed, rfl, decoded⟩, new⟩
  · refine Or.inl ⟨⟨name, rfl, known⟩, ?_⟩
    rw [fillMembers] at filled
    obtain ⟨_, same, filled⟩ := bind_eq_ok.mp filled
    cases same
    rw [find?_fields_eq_none known] at filled
    obtain ⟨_, skipped, _⟩ := bind_eq_ok.mp filled
    exact skipped

end

/-! ## Members one after another -/

section

variable {ending : Ending}

/-- What is given besides a part makes the same record of it whatever the part holds. -/
theorem fill_put (listed : slot ∈ layout.slots) {seen : List String} (given : slot.name ∈ seen)
    {record result : Record} {members : List (Document × Document)}
    (filled : fillMembers layout.fields ending seen record members = .ok result)
    (value : slot.Value) :
    fillMembers layout.fields ending seen (slot.put record value) members =
        .ok (slot.put result value)
      ∧ slot.get result = slot.get record := by
  induction members generalizing seen record with
  | nil =>
      obtain ⟨_, finished, complete⟩ := bind_eq_ok.mp filled
      split at complete
      next whole =>
        cases complete
        refine ⟨bind_eq_ok.mpr ⟨(), finished, ?_⟩, rfl⟩
        rw [if_pos whole]
        rfl
      next => cases complete
  | cons member members induction =>
      rcases passes_or_enters filled with passes | ⟨other, value', enters, new⟩
      · rw [fill_of_passes passes] at filled ⊢
        exact induction given filled
      · have differ : slot.name ≠ other.name := fun same => new (same ▸ given)
        have apart := apart_of_ne listed enters.listed differ
        rw [fill_of_enters enters new] at filled ⊢
        rw [apart]
        have apart := apart_of_ne enters.listed listed differ.symm
        rw [← apart.get_put record value']
        exact induction (List.mem_cons_of_mem _ given) filled

/-- A record can be read with fewer parts known to be given, if these need not be. -/
theorem fill_of_subset {seen fewer : List String} (subset : ∀ name ∈ fewer, name ∈ seen)
    (optional : ∀ slot ∈ layout.slots, slot.required = true → slot.name ∈ seen →
      slot.name ∈ fewer)
    {record result : Record} {members : List (Document × Document)}
    (filled : fillMembers layout.fields ending seen record members = .ok result) :
    fillMembers layout.fields ending fewer record members = .ok result := by
  induction members generalizing seen fewer record with
  | nil =>
      obtain ⟨_, finished, complete⟩ := bind_eq_ok.mp filled
      split at complete
      next whole =>
        refine bind_eq_ok.mpr ⟨(), finished, ?_⟩
        rw [if_pos]
        · exact complete
        · rw [List.all_eq_true] at whole ⊢
          intro field member
          obtain ⟨slot, listed, rfl⟩ := List.mem_map.mp member
          have given := whole _ member
          simp only [Slot.field, Bool.or_eq_true, Bool.not_eq_true', List.contains_eq_mem,
            decide_eq_true_eq] at given ⊢
          cases needed : slot.required with
          | false => exact Or.inl rfl
          | true =>
              rw [needed] at given
              exact Or.inr (optional slot listed needed (given.resolve_left Bool.noConfusion))
      next => cases complete
  | cons member members induction =>
      rcases passes_or_enters filled with passes | ⟨slot, value, enters, new⟩
      · rw [fill_of_passes passes] at filled ⊢
        exact induction subset optional filled
      · rw [fill_of_enters enters new] at filled
        rw [fill_of_enters enters fun old => new (subset _ old)]
        refine induction ?_ ?_ filled
        · exact fun name old => (List.mem_cons.mp old).elim
            (fun same => same ▸ List.mem_cons_self) fun old =>
              List.mem_cons_of_mem _ (subset name old)
        · exact fun other listed needed old => (List.mem_cons.mp old).elim
            (fun same => same ▸ List.mem_cons_self) fun old =>
              List.mem_cons_of_mem _ (optional other listed needed old)

/-- What has been read of the first members is kept apart from what follows. -/
theorem exists_fill {seen : List String} {record result : Record}
    {before after : List (Document × Document)}
    (filled : fillMembers layout.fields ending seen record (before ++ after) = .ok result) :
    ∃ given next, (∀ rest, fillMembers layout.fields ending seen record (before ++ rest) =
        fillMembers layout.fields ending given next rest)
      ∧ (∀ slot ∈ layout.slots, ∀ value, (Document.ofString slot.name, value) ∈ before →
        slot.name ∈ given)
      ∧ (∀ name ∈ seen, name ∈ given)
      ∧ ∀ slot ∈ layout.slots, slot.name ∉ given → slot.get next = slot.get record := by
  induction before generalizing seen record with
  | nil => exact ⟨seen, record, fun _ => rfl, nofun, fun _ => id, fun _ _ _ => rfl⟩
  | cons member before induction =>
      rw [List.cons_append] at filled
      rcases passes_or_enters filled with passes | ⟨slot, value, enters, new⟩
      · rw [fill_of_passes passes] at filled
        obtain ⟨given, next, rest, known, old, kept⟩ := induction filled
        refine ⟨given, next, fun others => ?_, ?_, old, kept⟩
        · rw [List.cons_append, fill_of_passes passes, rest]
        · intro slot listed value member
          rcases List.mem_cons.mp member with rfl | later
          · obtain ⟨⟨name, same, unknown⟩, _⟩ := passes
            cases same
            exact absurd (List.mem_map_of_mem listed) unknown
          · exact known slot listed value later
      · rw [fill_of_enters enters new] at filled
        obtain ⟨given, next, rest, known, old, kept⟩ := induction filled
        refine ⟨given, next, fun others => ?_, ?_, ?_, ?_⟩
        · rw [List.cons_append, fill_of_enters enters new, rest]
        · intro other listed value member
          rcases List.mem_cons.mp member with rfl | later
          · have same := Document.ofString_injective enters.named
            exact old _ (same ▸ List.mem_cons_self)
          · exact known other listed value later
        · exact fun name member => old name (List.mem_cons_of_mem _ member)
        · intro other listed missing
          have differ : slot.name ≠ other.name := by
            intro same
            exact missing (same ▸ old _ List.mem_cons_self)
          rw [kept other listed missing,
            (apart_of_ne enters.listed listed differ).get_put]

/-- Members are read to the same record in any order. -/
theorem fill_perm {members other : List (Document × Document)} (same : members.Perm other)
    {seen : List String} {record result : Record}
    (filled : fillMembers layout.fields ending seen record members = .ok result) :
    fillMembers layout.fields ending seen record other = .ok result := by
  induction same generalizing seen record with
  | nil => exact filled
  | cons member _ induction =>
      rcases passes_or_enters filled with passes | ⟨slot, value, enters, new⟩
      · rw [fill_of_passes passes] at filled ⊢
        exact induction filled
      · rw [fill_of_enters enters new] at filled ⊢
        exact induction filled
  | swap second first members =>
      rcases passes_or_enters filled with passes | ⟨slot, value, enters, new⟩
      · rw [fill_of_passes passes] at filled
        rcases passes_or_enters filled with passes' | ⟨slot, value, enters, new⟩
        · rw [fill_of_passes passes'] at filled ⊢
          rwa [fill_of_passes passes]
        · rw [fill_of_enters enters new] at filled ⊢
          rwa [fill_of_passes passes]
      · rw [fill_of_enters enters new] at filled
        rcases passes_or_enters filled with passes | ⟨other, value', enters', new'⟩
        · rw [fill_of_passes passes] at filled ⊢
          rwa [fill_of_enters enters new]
        · rw [List.mem_cons, not_or] at new'
          rw [fill_of_enters enters' (by simpa using new')] at filled
          rw [fill_of_enters enters' new'.2, fill_of_enters enters (by
            simpa using ⟨Ne.symm new'.1, new⟩)]
          rw [apart_of_ne enters'.listed enters.listed new'.1]
          refine fill_of_subset ?_ ?_ filled
          · simp only [List.mem_cons]
            tauto
          · simp only [List.mem_cons]
            tauto
  | trans _ _ first second => exact second (first filled)

end

/-! ## Members of a whole object -/

section

variable {ending : Ending} {before after members : List (Document × Document)} {result : Record}
  {value : Document}

theorem decoder_perm {other : List (Document × Document)} (same : members.Perm other)
    (decoded : layout.decoder (.object members ending) = .ok result) :
    layout.decoder (.object other ending) = .ok result :=
  fill_perm same decoded

/-- A member that is read is either passed over, and could be left out, or it is known. -/
theorem passes_or_known {member : Document × Document}
    (decoded : layout.decoder (.object (before ++ member :: after) ending) = .ok result) :
    (layout.Passes member ∧ layout.decoder (.object (before ++ after) ending) = .ok result)
      ∨ ∃ slot ∈ layout.slots, member.1 = .ofString slot.name := by
  obtain ⟨given, next, rest, _⟩ := exists_fill decoded
  rw [decoder, record, rest] at decoded
  rcases passes_or_enters decoded with passes | ⟨slot, _, enters, _⟩
  · rw [fill_of_passes passes, ← rest] at decoded
    exact Or.inl ⟨passes, decoded⟩
  · exact Or.inr ⟨slot, enters.listed, enters.named⟩

/-- A member that is passed over makes no difference, wherever it stands. -/
theorem decoder_insert {member : Document × Document} (passes : layout.Passes member)
    (decoded : layout.decoder (.object (before ++ after) ending) = .ok result) :
    layout.decoder (.object (before ++ member :: after) ending) = .ok result := by
  obtain ⟨given, next, rest, _⟩ := exists_fill decoded
  rw [decoder, record, rest] at decoded ⊢
  rwa [fill_of_passes passes]

/-- A known member gives its part, and another value in its place gives another part. -/
theorem decoder_replace (listed : slot ∈ layout.slots)
    (decoded : layout.decoder
      (.object (before ++ (.ofString slot.name, value) :: after) ending) = .ok result) :
    slot.form.decoder value = .ok (slot.get result)
      ∧ ∀ other, layout.decoder
        (.object (before ++ (.ofString slot.name, other) :: after) ending) =
          (slot.form.decoder other).map (slot.put result) := by
  obtain ⟨given, next, rest, _⟩ := exists_fill decoded
  rw [decoder, record, rest] at decoded
  obtain ⟨new, held, read, filled⟩ := exists_of_fill_known listed decoded
  have free := fill_put listed List.mem_cons_self filled
  refine ⟨?_, fun other => ?_⟩
  · rw [read, (free held).2, slot.get_put]
  · rw [decoder, record, rest, fill_of_known listed, if_neg (by simpa using new)]
    cases slot.form.decoder other with
    | error fault => rfl
    | ok value =>
        have changed := (free value).1
        rw [slot.put_put] at changed
        exact changed

/-- Without a member that need not be given, its part has its default. -/
theorem decoder_delete (listed : slot ∈ layout.slots) (optional : slot.required = false)
    (decoded : layout.decoder
      (.object (before ++ (.ofString slot.name, value) :: after) ending) = .ok result) :
    layout.decoder (.object (before ++ after) ending) =
      .ok (slot.put result (slot.get layout.defaults)) := by
  obtain ⟨given, next, rest, _, _, kept⟩ := exists_fill decoded
  rw [decoder, record, rest] at decoded ⊢
  obtain ⟨new, held, _, filled⟩ := exists_of_fill_known listed decoded
  have unset := (fill_put listed List.mem_cons_self filled (slot.get next)).1
  rw [slot.put_put, slot.put_get, kept slot listed new] at unset
  refine fill_of_subset (fun _ => List.mem_cons_of_mem _) ?_ unset
  intro other listed' needed member
  rcases List.mem_cons.mp member with same | old
  · have found := find?_slots listed'
    rw [same, find?_slots listed] at found
    cases found
    rw [optional] at needed
    cases needed
  · exact old

/-- A known member that is given again is refused. -/
theorem decoder_repeat {other : Document} (listed : slot ∈ layout.slots)
    (given : (.ofString slot.name, value) ∈ members)
    (decoded : layout.decoder (.object members ending) = .ok result) :
    layout.decoder (.object (members ++ [(.ofString slot.name, other)]) ending) =
      .error .mismatch := by
  have whole : layout.decoder (.object (members ++ []) ending) = .ok result := by
    rwa [List.append_nil]
  obtain ⟨seen, next, rest, known, _⟩ := exists_fill whole
  rw [decoder, record, rest, fill_of_known listed,
    if_pos (by simpa using known slot listed value given)]

end

/-! ## Items in the order of the parts -/

section

variable {ending : Ending} {slots : List (Slot Record)}

theorem fillItems_put (apart : ∀ other ∈ slots, slot.Apart other) {record result : Record}
    {items : List Document}
    (filled : fillItems ending (slots.map Slot.field) record items = .ok result)
    (value : slot.Value) :
    fillItems ending (slots.map Slot.field) (slot.put record value) items =
        .ok (slot.put result value)
      ∧ slot.get result = slot.get record := by
  induction items generalizing slots record with
  | nil =>
      cases slots with
      | nil =>
          obtain ⟨_, finished, same⟩ := bind_eq_ok.mp filled
          cases same
          exact ⟨bind_eq_ok.mpr ⟨(), finished, rfl⟩, rfl⟩
      | cons first slots =>
          obtain ⟨_, finished, complete⟩ := bind_eq_ok.mp filled
          split at complete
          next whole =>
            cases complete
            refine ⟨bind_eq_ok.mpr ⟨(), finished, ?_⟩, rfl⟩
            rw [if_pos whole]
            rfl
          next => cases complete
  | cons item items induction =>
      cases slots with
      | nil => cases filled
      | cons first slots =>
          obtain ⟨first_apart, apart⟩ := List.forall_mem_cons.mp apart
          obtain ⟨next, read, filled⟩ := bind_eq_ok.mp filled
          obtain ⟨held, decoded, rfl⟩ := map_eq_ok.mp read
          obtain ⟨again, same⟩ := induction apart filled
          refine ⟨bind_eq_ok.mpr ⟨_, map_eq_ok.mpr ⟨held, decoded, rfl⟩, ?_⟩, ?_⟩
          · rw [first_apart]
            exact again
          · exact same.trans (Slot.Apart.get_put (Std.Symm.symm _ _ first_apart) record held)

theorem fillItems_replace {front back : List (Slot Record)}
    (apart : ∀ other ∈ back, slot.Apart other) {record result : Record}
    {before after : List Document} {value : Document} (placed : before.length = front.length)
    (filled : fillItems ending ((front ++ slot :: back).map Slot.field) record
      (before ++ value :: after) = .ok result) :
    slot.form.decoder value = .ok (slot.get result)
      ∧ ∀ other, fillItems ending ((front ++ slot :: back).map Slot.field) record
          (before ++ other :: after) = (slot.form.decoder other).map (slot.put result) := by
  induction before generalizing front record with
  | nil =>
      obtain rfl := List.length_eq_zero_iff.mp placed.symm
      obtain ⟨next, read, filled⟩ := bind_eq_ok.mp filled
      obtain ⟨held, decoded, rfl⟩ := map_eq_ok.mp read
      have free := fillItems_put apart filled
      refine ⟨?_, fun other => ?_⟩
      · rw [decoded, (free held).2, slot.get_put]
      · change (slot.form.decoder other).map (slot.put record) >>= _ = _
        cases slot.form.decoder other with
        | error fault => rfl
        | ok value =>
            have changed := (free value).1
            rw [slot.put_put] at changed
            exact changed
  | cons item before induction =>
      cases front with
      | nil => cases placed
      | cons first front =>
          obtain ⟨next, read, filled⟩ := bind_eq_ok.mp filled
          obtain ⟨decoded, others⟩ := induction (Nat.succ.inj placed) filled
          refine ⟨decoded, fun other => ?_⟩
          rw [← others other]
          change first.field.read item record >>= _ = _
          rw [read]
          rfl

theorem length_le_of_fillItems {fields : List (RecordField Record)} {record result : Record}
    {items : List Document} (filled : fillItems ending fields record items = .ok result) :
    items.length ≤ fields.length := by
  induction items generalizing fields record with
  | nil => exact Nat.zero_le _
  | cons item items induction =>
      cases fields with
      | nil => cases filled
      | cons field fields =>
          obtain ⟨next, _, filled⟩ := bind_eq_ok.mp filled
          exact Nat.succ_le_succ (induction filled)

/-- Every item that is read stands at the place of a part. -/
theorem exists_slot_of_item {before after : List Document} {item : Document} {result : Record}
    (decoded : layout.decoder (.list (before ++ item :: after) ending) = .ok result) :
    ∃ front slot back, layout.slots = front ++ slot :: back ∧ before.length = front.length := by
  have long := length_le_of_fillItems decoded
  rw [fields, List.length_map, List.length_append, List.length_cons] at long
  have inside : before.length < layout.slots.length := by omega
  refine ⟨layout.slots.take before.length, layout.slots[before.length],
    layout.slots.drop (before.length + 1), ?_, ?_⟩
  · rw [← List.drop_eq_getElem_cons inside, List.take_append_drop]
  · rw [List.length_take, Nat.min_eq_left (Nat.le_of_lt inside)]

/-- An item gives the part at its place, and another value in its place gives another part. -/
theorem decoder_replace_item {front back : List (Slot Record)} {before after : List Document}
    {value : Document} {result : Record} (placed : before.length = front.length)
    (split : layout.slots = front ++ slot :: back)
    (decoded : layout.decoder (.list (before ++ value :: after) ending) = .ok result) :
    slot.form.decoder value = .ok (slot.get result)
      ∧ ∀ other, layout.decoder (.list (before ++ other :: after) ending) =
          (slot.form.decoder other).map (slot.put result) := by
  have apart : ∀ other ∈ back, slot.Apart other := by
    have pairs := layout.apart
    rw [split, List.pairwise_append, List.pairwise_cons] at pairs
    exact pairs.2.1.1
  rw [decoder, record, fields, split] at decoded
  obtain ⟨read, others⟩ := fillItems_replace apart placed decoded
  refine ⟨read, fun other => ?_⟩
  rw [decoder, record, fields, split]
  exact others other

end

/-- A record is read thoroughly if its parts are. -/
theorem decoder_isThorough (thorough : ∀ slot ∈ layout.slots, slot.form.decoder.IsThorough) :
    layout.decoder.IsThorough := by
  refine record_isThorough ?_ _
  intro field member document record result read
  obtain ⟨slot, listed, rfl⟩ := List.mem_map.mp member
  obtain ⟨value, decoded, _⟩ := map_eq_ok.mp read
  exact thorough slot listed document value decoded

end Layout

end FlightGuard
