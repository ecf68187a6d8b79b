import FlightGuard.Proofs.Document.Grammar
import FlightGuard.Proofs.Document.Layouts
import Mathlib.Logic.Relation

/-!
# Rearranged documents

The members of an object can be put in another order, and the members of an object that stands for
a record can be edited: an unknown one inserted, a known one left out or given again.  A form obeys
the law of records (`Form.IsLawful`) if a new order and an unknown member make no difference to it,
a part that is left out has its default, and a part that is given twice is a mismatch.

The law is proved for plain values, for lists and for records with a layout, each from the law for
what it is made of.  It is a law of documents; since a text is read as the document that it is a
text of, it holds of all texts, whatever their blanks.
-/

namespace FlightGuard

open Decoder

/-! ## Another order -/

namespace Document

/-- The members of one object stand in another order. -/
inductive Reordered : Document → Document → Prop where
  | here {members other : List (Document × Document)} {ending : Ending}
      (same : members.Perm other) : Reordered (.object members ending) (.object other ending)
  | member {before after : List (Document × Document)} {key value other : Document}
      {ending : Ending} (inner : Reordered value other) :
      Reordered (.object (before ++ (key, value) :: after) ending)
        (.object (before ++ (key, other) :: after) ending)
  | item {before after : List Document} {item other : Document} {ending : Ending}
      (inner : Reordered item other) :
      Reordered (.list (before ++ item :: after) ending) (.list (before ++ other :: after) ending)

theorem Reordered.skip {document other : Document} (reordered : document.Reordered other)
    (skipped : document.skip = .ok ()) : other.skip = .ok () := by
  induction reordered with
  | here same =>
      obtain ⟨closed, members⟩ := skipMembers_eq_ok_iff.mp skipped
      exact skipMembers_eq_ok_iff.mpr
        ⟨closed, fun member given => members member (same.mem_iff.mpr given)⟩
  | member _ induction =>
      obtain ⟨closed, members⟩ := skipMembers_eq_ok_iff.mp skipped
      rw [List.forall_mem_append, List.forall_mem_cons] at members
      refine skipMembers_eq_ok_iff.mpr ⟨closed, ?_⟩
      rw [List.forall_mem_append, List.forall_mem_cons]
      exact ⟨members.1, ⟨members.2.1.1, induction members.2.1.2⟩, members.2.2⟩
  | item _ induction =>
      obtain ⟨closed, items⟩ := skipItems_eq_ok_iff.mp skipped
      rw [List.forall_mem_append, List.forall_mem_cons] at items
      refine skipItems_eq_ok_iff.mpr ⟨closed, ?_⟩
      rw [List.forall_mem_append, List.forall_mem_cons]
      exact ⟨items.1, induction items.2.1, items.2.2⟩

end Document

namespace Decoder

variable {Value : Type} {decoder : Decoder Value}

/-- What is read from a document is read from it in any order of its members. -/
def IgnoresOrder (decoder : Decoder Value) : Prop :=
  ∀ document other value, document.Reordered other → decoder document = .ok value →
    decoder other = .ok value

/-- A reader that takes no list and no object has nothing to reorder. -/
theorem ignoresOrder_of_flat
    (lists : ∀ items ending value, decoder (.list items ending) ≠ .ok value)
    (objects : ∀ members ending value, decoder (.object members ending) ≠ .ok value) :
    decoder.IgnoresOrder := by
  intro document other value reordered decoded
  cases reordered with
  | here _ => exact absurd decoded (objects _ _ _)
  | member _ => exact absurd decoded (objects _ _ _)
  | item _ => exact absurd decoded (lists _ _ _)

theorem truth_ignoresOrder : truth.IgnoresOrder :=
  ignoresOrder_of_flat nofun nofun

theorem text_ignoresOrder : text.IgnoresOrder :=
  ignoresOrder_of_flat nofun nofun

theorem number_ignoresOrder (read : Numeral → Value) : (number read).IgnoresOrder :=
  ignoresOrder_of_flat nofun nofun

theorem double_ignoresOrder : double.IgnoresOrder :=
  number_ignoresOrder _

theorem single_ignoresOrder : single.IgnoresOrder :=
  number_ignoresOrder _

theorem natural_ignoresOrder (bound : Nat) : (natural bound).IgnoresOrder :=
  ignoresOrder_of_flat nofun nofun

/-- Reads a value and changes it. -/
def mapped {Result : Type} (decoder : Decoder Value) (change : Value → Result) : Decoder Result :=
  fun document => (decoder document).map change

theorem mapped_isThorough {Result : Type} (thorough : decoder.IsThorough)
    (change : Value → Result) : (mapped decoder change).IsThorough := by
  intro document result decoded
  obtain ⟨held, read, _⟩ := map_eq_ok.mp decoded
  exact thorough document held read

theorem mapped_ignoresOrder {Result : Type} (ignores : decoder.IgnoresOrder)
    (change : Value → Result) : (mapped decoder change).IgnoresOrder := by
  intro document other result reordered decoded
  obtain ⟨held, read, rfl⟩ := map_eq_ok.mp decoded
  exact map_eq_ok.mpr ⟨held, ignores _ _ _ reordered read, rfl⟩

theorem optional_ignoresOrder (ignores : decoder.IgnoresOrder) :
    (optional decoder).IgnoresOrder := by
  intro document other value reordered decoded
  have inner : ∀ {document : Document}, document ≠ .null →
      optional decoder document = (decoder document).map some := by
    intro document given
    cases document with
    | null => exact absurd rfl given
    | truth _ | number _ | text _ | list _ _ | object _ _ | broken _ _ _ => rfl
  have given : document ≠ .null ∧ other ≠ .null := by
    cases reordered <;> exact ⟨nofun, nofun⟩
  rw [inner given.1] at decoded
  rw [inner given.2]
  obtain ⟨held, read, rfl⟩ := map_eq_ok.mp decoded
  exact map_eq_ok.mpr ⟨held, ignores _ _ _ reordered read, rfl⟩

/-- An item gives a value of the list, and another item in its place gives another value. -/
theorem collect_replace {ending : Ending} {before after : List Document} {item : Document}
    {values : List Value}
    (collected : collect decoder ending (before ++ item :: after) = .ok values) :
    ∃ front held back, values = front ++ held :: back ∧ front.length = before.length
      ∧ decoder item = .ok held
      ∧ ∀ other, collect decoder ending (before ++ other :: after) =
          (decoder other).map fun value => front ++ value :: back := by
  induction before generalizing values with
  | nil =>
      obtain ⟨held, read, rest⟩ := bind_eq_ok.mp collected
      obtain ⟨back, others, same⟩ := bind_eq_ok.mp rest
      cases same
      refine ⟨[], held, back, rfl, rfl, read, fun other => ?_⟩
      change decoder other >>= (fun value => collect decoder ending after >>= _) = _
      rw [others]
      cases decoder other <;> rfl
  | cons first before induction =>
      obtain ⟨value, read, rest⟩ := bind_eq_ok.mp collected
      obtain ⟨values, others, same⟩ := bind_eq_ok.mp rest
      cases same
      obtain ⟨front, held, back, rfl, long, given, replaced⟩ := induction others
      refine ⟨value :: front, held, back, rfl, congrArg Nat.succ long, given, fun other => ?_⟩
      change (do
        let value ← decoder first
        let values ← collect decoder ending (before ++ other :: after)
        return value :: values) = _
      rw [read, replaced]
      cases decoder other <;> rfl

theorem listOf_ignoresOrder (ignores : decoder.IgnoresOrder) : (listOf decoder).IgnoresOrder := by
  intro document other values reordered decoded
  cases reordered with
  | here _ => cases decoded
  | member _ => cases decoded
  | item inner =>
      obtain ⟨front, held, back, rfl, _, read, replaced⟩ := collect_replace decoded
      refine (replaced _).trans ?_
      rw [ignores _ _ _ inner read]
      rfl

theorem collectExactly_congr {ending : Ending} {before after : List Document}
    {item other : Document} (same : ∀ value, decoder item = .ok value → decoder other = .ok value)
    {count : Nat} {values : Vector Value count}
    (collected : collectExactly decoder ending count (before ++ item :: after) = .ok values) :
    collectExactly decoder ending count (before ++ other :: after) = .ok values := by
  induction before generalizing count with
  | nil =>
      cases count with
      | zero => cases collected
      | succ count =>
          obtain ⟨value, read, rest⟩ := bind_eq_ok.mp collected
          exact bind_eq_ok.mpr ⟨value, same value read, rest⟩
  | cons first before induction =>
      cases count with
      | zero => cases collected
      | succ count =>
          obtain ⟨value, read, rest⟩ := bind_eq_ok.mp collected
          obtain ⟨others, given, whole⟩ := bind_eq_ok.mp rest
          exact bind_eq_ok.mpr ⟨value, read, bind_eq_ok.mpr ⟨others, induction given, whole⟩⟩

theorem exactly_ignoresOrder (count : Nat) (ignores : decoder.IgnoresOrder) :
    (exactly count decoder).IgnoresOrder := by
  intro document other values reordered decoded
  cases reordered with
  | here _ => cases decoded
  | member _ => cases decoded
  | item inner => exact collectExactly_congr (fun value => ignores _ _ value inner) decoded

end Decoder

/-! ## Edited records -/

/-- What can be done to a member of an object that stands for a record. -/
inductive Edit where
  | insertion (name : String)
  | deletion (name : String)
  | repetition (name : String)

/--
An edit of the members of an object, given the names that are required and those that are known: a
new member with an unknown name anywhere, a known member that is not required left out, or a known
member given once more at the end.
-/
inductive Edit.Changes (required known : List String) :
    Edit → List (Document × Document) → List (Document × Document) → Prop where
  | insertion {name : String} {value : Document} {before after : List (Document × Document)}
      (unknown : name ∉ known) (valid : value.IsValid) :
      Changes required known (.insertion name) (before ++ after)
        (before ++ (.ofString name, value) :: after)
  | deletion {name : String} {value : Document} {before after : List (Document × Document)}
      (listed : name ∈ known) (optional : name ∉ required) :
      Changes required known (.deletion name) (before ++ (.ofString name, value) :: after)
        (before ++ after)
  | repetition {name : String} {value : Document} {members : List (Document × Document)}
      (listed : name ∈ known) (given : (.ofString name, value) ∈ members) :
      Changes required known (.repetition name) members (members ++ [(.ofString name, value)])

/--
An edit of one object that stands for a record, at a place in a document of a shape.  The way there
leads through the members of objects and, where a record is given as a list, through the items of
that list.
-/
inductive Shape.Edited (edit : Edit) : Shape → List Place → Document → Document → Prop where
  | here {required : List String} {fields : List (String × Shape)}
      {members other : List (Document × Document)} {ending : Ending}
      (changes : edit.Changes required (fields.map Prod.fst) members other) :
      Edited edit (.record required fields) [] (.object members ending) (.object other ending)
  | member {required : List String} {fields : List (String × Shape)} {name : String}
      {shape : Shape} {path : List Place} {before after : List (Document × Document)}
      {value other : Document} {ending : Ending} (listed : (name, shape) ∈ fields)
      (inner : Edited edit shape path value other) :
      Edited edit (.record required fields) (.member name :: path)
        (.object (before ++ (.ofString name, value) :: after) ending)
        (.object (before ++ (.ofString name, other) :: after) ending)
  | place {required : List String} {front back : List (String × Shape)} {name : String}
      {shape : Shape} {path : List Place} {before after : List Document}
      {value other : Document} {ending : Ending} (placed : before.length = front.length)
      (inner : Edited edit shape path value other) :
      Edited edit (.record required (front ++ (name, shape) :: back)) (.member name :: path)
        (.list (before ++ value :: after) ending) (.list (before ++ other :: after) ending)
  | item {shape : Shape} {path : List Place} {before after : List Document}
      {value other : Document} {ending : Ending} (inner : Edited edit shape path value other) :
      Edited edit (.listOf shape) (.item before.length :: path)
        (.list (before ++ value :: after) ending) (.list (before ++ other :: after) ending)

/-- What is read after an edit of the record at a place, where a value was read before. -/
def Edit.outcome {Value : Type} (edit : Edit) (form : Form Value) (path : List Place)
    (value : Value) : Except Fault Value :=
  match edit with
  | .insertion _ => .ok value
  | .deletion name => .ok (form.reset path name value)
  | .repetition _ => .error .mismatch

/-! ## The law of records -/

namespace Form

variable {Value : Type} {form : Form Value}

/--
A value is read only from documents without faults; another order of the members makes no
difference to it; and an edit has the outcome that it should have.
-/
structure IsLawful (form : Form Value) : Prop where
  thorough : form.decoder.IsThorough
  reorders : form.decoder.IgnoresOrder
  edits : ∀ edit path document other value, form.shape.Edited edit path document other →
    form.decoder document = .ok value → form.decoder other = edit.outcome form path value

/-- The form of a value with no record in it. -/
def plain (decoder : Decoder Value) : Form Value :=
  ⟨decoder, .plain, fun _ _ value => value⟩

/-- A field that changes what it is given reads a part from changed values. -/
theorem field_mapped {Record Result : Type} (name : String) (required : Bool)
    (decoder : Decoder Value) (convert : Value → Result) (get : Record → Result)
    (put : Record → Result → Record) (get_put : ∀ record value, get (put record value) = value)
    (put_get : ∀ record, put record (get record) = record)
    (put_put : ∀ record first second, put (put record first) second = put record second) :
    (Slot.mk name required (plain (mapped decoder convert)) get put get_put put_get put_put).field =
      ⟨name, required, fun document record =>
        (decoder document).map fun value => put record (convert value)⟩ := by
  rw [Slot.field]
  congr 1
  funext document record
  change ((decoder document).map convert).map (put record) = _
  cases decoder document <;> rfl

theorem plain_isLawful {decoder : Decoder Value} (thorough : decoder.IsThorough)
    (reorders : decoder.IgnoresOrder) : (plain decoder).IsLawful :=
  ⟨thorough, reorders, fun _ _ _ _ _ edited => nomatch edited⟩

/-- Changes the item at a place of a list. -/
def resetItem (form : Form Value) : List Place → String → List Value → List Value
  | .item index :: path, name, values => values.modify index (form.reset path name)
  | _, _, values => values

/-- The form of a list. -/
def listOf (form : Form Value) : Form (List Value) :=
  ⟨Decoder.listOf form.decoder, .listOf form.shape, form.resetItem⟩

theorem resetItem_append (form : Form Value) (path : List Place) (name : String)
    (front back : List Value) (held : Value) :
    form.resetItem (.item front.length :: path) name (front ++ held :: back) =
      front ++ form.reset path name held :: back := by
  rw [resetItem, List.modify_eq_take_cons_drop (by simp)]
  simp

theorem listOf_isLawful (lawful : form.IsLawful) : (listOf form).IsLawful := by
  refine ⟨listOf_isThorough lawful.thorough, listOf_ignoresOrder lawful.reorders, ?_⟩
  intro edit path document other values edited decoded
  cases edited with
  | @item shape path before after item other ending inner =>
      obtain ⟨front, held, back, rfl, long, read, replaced⟩ := collect_replace decoded
      refine (replaced _).trans ?_
      rw [lawful.edits _ _ _ _ _ inner read, ← long]
      cases edit with
      | insertion _ => rfl
      | deletion name =>
          exact congrArg Except.ok (form.resetItem_append path name front back held).symm
      | repetition _ => rfl

end Form

namespace Layout

variable {Record : Type} {layout : Layout Record}

theorem decoder_ignoresOrder (lawful : ∀ slot ∈ layout.slots, slot.form.IsLawful) :
    layout.decoder.IgnoresOrder := by
  intro document other result reordered decoded
  cases reordered with
  | here same => exact decoder_perm same decoded
  | @member before after key value other ending inner =>
      rcases passes_or_known decoded with ⟨⟨named, skipped⟩, rest⟩ | ⟨slot, listed, same⟩
      · exact decoder_insert ⟨named, inner.skip skipped⟩ rest
      · change key = .ofString slot.name at same
        subst same
        obtain ⟨read, replaced⟩ := decoder_replace listed decoded
        rw [replaced other, (lawful slot listed).reorders _ _ _ inner read]
        exact congrArg Except.ok (slot.put_get result)
  | @item before after item other ending inner =>
      obtain ⟨front, slot, back, split, placed⟩ := exists_slot_of_item decoded
      have listed : slot ∈ layout.slots := by simp [split]
      obtain ⟨read, replaced⟩ := decoder_replace_item placed split decoded
      rw [replaced other, (lawful slot listed).reorders _ _ _ inner read]
      exact congrArg Except.ok (slot.put_get result)

/-- An edit within a part of the record has its outcome in that part. -/
theorem outcome_member {slot : Slot Record} (listed : slot ∈ layout.slots) (edit : Edit)
    (path : List Place) (record : Record) :
    (edit.outcome slot.form path (slot.get record)).map (slot.put record) =
      edit.outcome layout.form (.member slot.name :: path) record := by
  cases edit with
  | insertion _ => exact congrArg Except.ok (slot.put_get record)
  | deletion name =>
      change Except.ok _ = Except.ok (layout.reset (.member slot.name :: path) name record)
      rw [reset, find?_slots listed]
  | repetition _ => rfl

theorem outcome_here (edit : Edit) {ending : Ending} {members other : List (Document × Document)}
    {record : Record}
    (changes : edit.Changes ((layout.slots.filter Slot.required).map Slot.name) layout.names
      members other)
    (decoded : layout.decoder (.object members ending) = .ok record) :
    layout.decoder (.object other ending) = edit.outcome layout.form [] record := by
  cases changes with
  | @insertion name value before after unknown valid =>
      exact decoder_insert ⟨⟨name, rfl, unknown⟩, valid.skip⟩ decoded
  | @deletion name value before after known optional =>
      obtain ⟨slot, listed, rfl⟩ := List.mem_map.mp known
      have free : slot.required = false := by
        cases needed : slot.required with
        | false => rfl
        | true =>
            exact absurd (List.mem_map_of_mem (List.mem_filter.mpr ⟨listed, needed⟩)) optional
      rw [decoder_delete listed free decoded]
      change Except.ok _ = Except.ok (layout.reset [] slot.name record)
      rw [reset, find?_slots listed]
  | @repetition name value members known given =>
      obtain ⟨slot, listed, rfl⟩ := List.mem_map.mp known
      exact decoder_repeat listed given decoded

/-- A record whose parts obey the law of records obeys it too. -/
theorem form_isLawful (lawful : ∀ slot ∈ layout.slots, slot.form.IsLawful) :
    layout.form.IsLawful := by
  refine ⟨decoder_isThorough fun slot listed => (lawful slot listed).thorough,
    decoder_ignoresOrder lawful, ?_⟩
  intro edit path document other record edited decoded
  change layout.shape.Edited edit path document other at edited
  change layout.decoder document = .ok record at decoded
  change layout.decoder other = _
  have names : (layout.slots.map fun slot => (slot.name, slot.form.shape)).map Prod.fst =
      layout.names := by
    rw [List.map_map]
    rfl
  rw [shape] at edited
  generalize split : layout.slots.map (fun slot => (slot.name, slot.form.shape)) = fields
    at edited names
  cases edited with
  | here changes =>
      rw [names] at changes
      exact outcome_here edit changes decoded
  | member known inner =>
      rw [← split] at known
      obtain ⟨slot, listed, same⟩ := List.mem_map.mp known
      cases same
      obtain ⟨read, replaced⟩ := decoder_replace listed decoded
      rw [replaced, (lawful slot listed).edits _ _ _ _ _ inner read, outcome_member listed]
  | place placed inner =>
      obtain ⟨front, rest, slots, rfl, others⟩ := List.map_eq_append_iff.mp split
      obtain ⟨slot, back, rfl, same, rfl⟩ := List.map_eq_cons_iff.mp others
      cases same
      have listed : slot ∈ layout.slots := by simp [slots]
      rw [List.length_map] at placed
      obtain ⟨read, replaced⟩ := decoder_replace_item placed slots decoded
      rw [replaced, (lawful slot listed).edits _ _ _ _ _ inner read, outcome_member listed]

end Layout

/-! ## Rearranged texts -/

namespace Document

theorem isValid_replace_member {before after : List (Document × Document)}
    {key value other : Document} {ending : Ending} (same : value.IsValid → other.IsValid)
    (valid : (object (before ++ (key, value) :: after) ending).IsValid) :
    (object (before ++ (key, other) :: after) ending).IsValid := by
  obtain ⟨closed, members⟩ := isValid_object_iff.mp valid
  rw [List.forall_mem_append, List.forall_mem_cons] at members
  obtain ⟨front, ⟨named, key, held⟩, back⟩ := members
  refine isValid_object_iff.mpr ⟨closed, ?_⟩
  rw [List.forall_mem_append, List.forall_mem_cons]
  exact ⟨front, ⟨named, key, same held⟩, back⟩

theorem isValid_replace_item {before after : List Document} {item other : Document}
    {ending : Ending} (same : item.IsValid → other.IsValid)
    (valid : (list (before ++ item :: after) ending).IsValid) :
    (list (before ++ other :: after) ending).IsValid := by
  obtain ⟨closed, items⟩ := isValid_list_iff.mp valid
  rw [List.forall_mem_append, List.forall_mem_cons] at items
  refine isValid_list_iff.mpr ⟨closed, ?_⟩
  rw [List.forall_mem_append, List.forall_mem_cons]
  exact ⟨items.1, same items.2.1, items.2.2⟩

theorem Reordered.isValid {document other : Document} (reordered : document.Reordered other)
    (valid : document.IsValid) : other.IsValid := by
  induction reordered with
  | here same =>
      obtain ⟨closed, members⟩ := isValid_object_iff.mp valid
      exact isValid_object_iff.mpr
        ⟨closed, fun member given => members member (same.mem_iff.mpr given)⟩
  | member _ induction => exact isValid_replace_member induction valid
  | item _ induction => exact isValid_replace_item induction valid

end Document

theorem Edit.Changes.isValid {edit : Edit} {required known : List String}
    {members other : List (Document × Document)}
    (changes : edit.Changes required known members other)
    (valid : ∀ member ∈ members, Document.IsValidMember member) :
    ∀ member ∈ other, Document.IsValidMember member := by
  cases changes with
  | @insertion name value before after _ given =>
      rw [List.forall_mem_append] at valid
      rw [List.forall_mem_append, List.forall_mem_cons]
      exact ⟨valid.1, ⟨⟨_, rfl⟩, Document.ofString_isValid name, given⟩, valid.2⟩
  | deletion _ _ =>
      rw [List.forall_mem_append, List.forall_mem_cons] at valid
      rw [List.forall_mem_append]
      exact ⟨valid.1, valid.2.2⟩
  | repetition _ given =>
      rw [List.forall_mem_append, List.forall_mem_singleton]
      exact ⟨valid, valid _ given⟩

theorem Shape.Edited.isValid {edit : Edit} {shape : Shape} {path : List Place}
    {document other : Document} (edited : shape.Edited edit path document other)
    (valid : document.IsValid) : other.IsValid := by
  induction edited with
  | here changes =>
      obtain ⟨closed, members⟩ := Document.isValid_object_iff.mp valid
      exact Document.isValid_object_iff.mpr ⟨closed, changes.isValid members⟩
  | member _ _ induction => exact Document.isValid_replace_member induction valid
  | place _ _ induction => exact Document.isValid_replace_item induction valid
  | item _ induction => exact Document.isValid_replace_item induction valid

namespace Form

variable {Value : Type} (form : Form Value)

/-- The members of an object are in another order, or a record has one more unknown member. -/
def Rearranged (document other : Document) : Prop :=
  document.Reordered other
    ∨ ∃ name path, form.shape.Edited (.insertion name) path document other

/-- The document has a text, and each of its texts is read with the given result. -/
def Gives (document : Document) (result : Except Fault Value) : Prop :=
  document.IsValid ∧ ∀ text, document.HasText text → form.decoder.ofText text = result

/--
The text is a text of exactly one document, from which a value is read.  Any number of new orders
and unknown members, and any blanks, leave the value; without a member that is not required the
value has its default in that place; and with a known member given again there is a mismatch.
-/
def Withstands (text : String) (value : Value) : Prop :=
  ∃ document, (∀ other, other.HasText text ↔ other = document)
    ∧ (∀ other, Relation.ReflTransGen form.Rearranged document other →
        form.Gives other (.ok value))
    ∧ (∀ name path other, form.shape.Edited (.deletion name) path document other →
        form.Gives other (.ok (form.reset path name value)))
    ∧ ∀ name path other, form.shape.Edited (.repetition name) path document other →
        form.Gives other (.error .mismatch)

variable {form}

theorem gives_of_isValid {document : Document} {result : Except Fault Value}
    (valid : document.IsValid) (decoded : form.decoder document = result) :
    form.Gives document result :=
  ⟨valid, fun _ written => (written.ofText_eq form.decoder).trans decoded⟩

theorem IsLawful.decoder_of_rearranged (lawful : form.IsLawful) {document other : Document}
    {value : Value} (rearranged : Relation.ReflTransGen form.Rearranged document other)
    (valid : document.IsValid) (decoded : form.decoder document = .ok value) :
    other.IsValid ∧ form.decoder other = .ok value := by
  induction rearranged with
  | refl => exact ⟨valid, decoded⟩
  | tail _ last induction =>
      obtain ⟨valid, decoded⟩ := induction
      rcases last with reordered | ⟨name, path, edited⟩
      · exact ⟨reordered.isValid valid, lawful.reorders _ _ _ reordered decoded⟩
      · exact ⟨edited.isValid valid, lawful.edits _ _ _ _ _ edited decoded⟩

/-- A form that obeys the law of records is read alike from rearranged texts. -/
theorem IsLawful.withstands (lawful : form.IsLawful) {text : String} {value : Value}
    (read : form.decoder.ofText text = .ok value) : form.Withstands text value := by
  obtain ⟨decoded, ended⟩ := ofText_eq_ok_iff.mp read
  have written := Document.hasText_of_reading (lawful.thorough _ _ decoded) ended
  have valid : (Reading.ofText text).document.IsValid := ⟨text, written⟩
  refine ⟨(Reading.ofText text).document, ?_, ?_, ?_, ?_⟩
  · intro other
    constructor
    · intro written
      rw [written.reading]
    · rintro rfl
      exact written
  · intro other rearranged
    obtain ⟨valid, decoded⟩ := lawful.decoder_of_rearranged rearranged valid decoded
    exact gives_of_isValid valid decoded
  · intro name path other edited
    exact gives_of_isValid (edited.isValid valid) (lawful.edits _ _ _ _ _ edited decoded)
  · intro name path other edited
    exact gives_of_isValid (edited.isValid valid) (lawful.edits _ _ _ _ _ edited decoded)

end Form

end FlightGuard
