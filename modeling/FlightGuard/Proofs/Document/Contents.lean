import FlightGuard.Document.Writer
import FlightGuard.Proofs.Document.Grammar

/-!
# The texts of contents

The text of a content is a text of the grammar, and so it is read as one document.  All that this
takes is that the text of each finite number in it is read back as the same number
(`Number.IsKept`).  Nothing else is known of how numbers are written and read.
-/

namespace FlightGuard

variable [NumberReading] {numbers : NumberWriting}

/-! ## Numbers -/

/-- A text that is read as a number is the text of a numeral. -/
theorem Decoder.exists_numeral_of_ofText {Value : Type} {read : Numeral → Value} {text : String}
    {value : Value} (kept : (number read).ofText text = .ok value) :
    ∃ numeral : Numeral, (Reading.ofText text).document = .number numeral
      ∧ number read (.number numeral) = .ok value
      ∧ (Document.number numeral).HasText text := by
  obtain ⟨decoded, ended⟩ := ofText_eq_ok_iff.mp kept
  obtain ⟨numeral, same, _⟩ := number_eq_ok_iff.mp decoded
  have written := Document.hasText_of_reading (number_isThorough read _ _ decoded) ended
  rw [same] at decoded written
  exact ⟨numeral, same, decoded, written⟩

namespace Number

variable {number : Number}

/-- The document is read as the number. -/
def IsReadFrom (document : Document) : Number → Prop
  | .double value => Decoder.double document = .ok value
  | .single value => Decoder.single document = .ok value

/-- The text of the number is read back as the same number. -/
def IsKept (numbers : NumberWriting) : Number → Prop
  | .double value => Decoder.double.ofText (numbers.double value) = .ok value
  | .single value => Decoder.single.ofText (numbers.single value) = .ok value

/-- What a reader makes of the text of a number. -/
def document (numbers : NumberWriting) (number : Number) : Document :=
  (Reading.ofText (numbers.text number)).document

theorem document_of_isKept (finite : number.isFinite = true) (kept : number.IsKept numbers) :
    ∃ numeral : Numeral, number.document numbers = .number numeral
      ∧ number.IsReadFrom (.number numeral)
      ∧ (Document.number numeral).HasText (numbers.text number) := by
  rw [document, NumberWriting.text, if_pos finite]
  cases number with
  | double value => exact Decoder.exists_numeral_of_ofText kept
  | single value => exact Decoder.exists_numeral_of_ofText kept

omit [NumberReading] in
theorem hasText_null (endless : number.isFinite = false) :
    Document.null.HasText (numbers.text number) := by
  rw [NumberWriting.text, if_neg (Bool.eq_false_iff.mp endless)]
  exact .null

omit [NumberReading] in
theorem document_of_endless (endless : number.isFinite = false) :
    number.document numbers = .null := by
  rw [document, (hasText_null endless).reading]

theorem hasText_document (kept : number.isFinite = true → number.IsKept numbers) :
    (number.document numbers).HasText (numbers.text number) := by
  cases finite : number.isFinite with
  | true =>
      obtain ⟨numeral, same, _, written⟩ := document_of_isKept finite (kept finite)
      rw [same]
      exact written
  | false =>
      rw [document_of_endless finite]
      exact hasText_null finite

end Number

/-! ## Contents -/

namespace Content

mutual

/-- The document of a content. -/
def document (numbers : NumberWriting) : Content → Document
  | .truth value => .truth value
  | .number value => value.document numbers
  | .word content => .ofString content
  | .record members => .object (documents numbers members) .closed

/-- The documents of the members of a record. -/
def documents (numbers : NumberWriting) : List (String × Content) → List (Document × Document)
  | [] => []
  | (name, content) :: members =>
      (.ofString name, content.document numbers) :: documents numbers members

end

/-- Every finite number in the content is kept. -/
inductive IsKept (numbers : NumberWriting) : Content → Prop where
  | truth (value : Bool) : IsKept numbers (.truth value)
  | number {value : Number} (kept : value.isFinite = true → value.IsKept numbers) :
      IsKept numbers (.number value)
  | word (content : String) : IsKept numbers (.word content)
  | record {members : List (String × Content)}
      (each : ∀ member ∈ members, IsKept numbers member.2) : IsKept numbers (.record members)

variable {content : Content} {members : List (String × Content)}

theorem IsKept.of_number {value : Number} (kept : (Content.number value).IsKept numbers) :
    value.isFinite = true → value.IsKept numbers := by
  cases kept with
  | number kept => exact kept

theorem IsKept.of_record (kept : (Content.record members).IsKept numbers) :
    ∀ member ∈ members, member.2.IsKept numbers := by
  cases kept with
  | record each => exact each

omit [NumberReading] in
theorem hasText_documents {member : String × Content}
    (each : ∀ part ∈ member :: members,
      (Document.Phrase.value (part.2.document numbers)).HasText (part.2.write numbers)) :
    (Document.Phrase.members (documents numbers (member :: members))).HasText
      (writeMembers numbers (member :: members)) := by
  induction members generalizing member with
  | nil =>
      have only := each member List.mem_cons_self
      exact .lastMember (Document.Phrase.hasText_quoted member.1) only
  | cons next members induction =>
      obtain ⟨first, rest⟩ := List.forall_mem_cons.mp each
      exact .nextMember (Document.Phrase.hasText_quoted member.1) first (induction rest)

/-- The text of a content in which all numbers are kept is a text of its document. -/
theorem IsKept.hasText (kept : content.IsKept numbers) :
    (content.document numbers).HasText (content.toText numbers) := by
  rw [Document.HasText, toText, String.toList_ofList]
  induction kept with
  | truth value => exact .truth value
  | number kept => exact Number.hasText_document kept
  | word content => exact Document.Phrase.hasText_quoted content
  | @record members _ each =>
      cases members with
      | nil => exact .emptyObject Document.allBlank_nil
      | cons member members => exact .object (hasText_documents each)

end Content

end FlightGuard
