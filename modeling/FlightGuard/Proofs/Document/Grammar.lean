import FlightGuard.Proofs.Document.Records
import FlightGuard.Proofs.Document.Tokens
import Mathlib.Data.List.DropRight

/-!
# The texts of a document

One document has many texts: blanks may stand around every token, and a number or a text can be
written in several ways.  `Phrase.HasText` is the grammar of these texts.  Its tokens are the words,
the numbers and the quoted texts, each of which stands for what the reader makes of its characters
alone.

The reader goes by the grammar.  It takes a token in the same way whatever follows, as long as a
number is not continued; so it finds the document of every text of the grammar, and a document
without faults is only ever found in a text of the grammar.
-/

namespace FlightGuard

namespace Document

/-! ## The grammar -/

/-- A run of blanks. -/
def AllBlank (characters : List Char) : Prop :=
  ∀ character ∈ characters, isBlank character = true

/--
What a stretch of a text may be: a value, or what stands behind the opening bracket of a list or of
an object that is not empty, its closing bracket included.
-/
inductive Phrase where
  | value (document : Document)
  | items (items : List Document)
  | members (members : List (Document × Document))

/-- The characters are a text of the phrase. -/
inductive Phrase.HasText : Phrase → List Char → Prop where
  | null : HasText (.value .null) "null".toList
  | truth (value : Bool) :
      HasText (.value (.truth value)) (if value then "true" else "false").toList
  | number {numeral : Numeral} {digits : List Char}
      (read : readMagnitude false digits = (.number numeral, some [])) :
      HasText (.value (.number numeral)) digits
  | negative {numeral : Numeral} {digits : List Char}
      (read : readMagnitude true digits = (.number numeral, some [])) :
      HasText (.value (.number numeral)) ('-' :: digits)
  | text {units : List TextUnit} {quoted : List Char}
      (scanned : scanText quoted = (units, .ok [])) :
      HasText (.value (.text ((joinUnits none units).map String.ofList))) ('"' :: quoted)
  | emptyList {blanks : List Char} (blank : AllBlank blanks) :
      HasText (.value (.list [] .closed)) ('[' :: (blanks ++ [']']))
  | list {items : List Document} {text : List Char} (inner : HasText (.items items) text) :
      HasText (.value (.list items .closed)) ('[' :: text)
  | emptyObject {blanks : List Char} (blank : AllBlank blanks) :
      HasText (.value (.object [] .closed)) ('\x7b' :: (blanks ++ ['\x7d']))
  | object {members : List (Document × Document)} {text : List Char}
      (inner : HasText (.members members) text) :
      HasText (.value (.object members .closed)) ('\x7b' :: text)
  | spaced {document : Document} {before text after : List Char} (front : AllBlank before)
      (back : AllBlank after) (inner : HasText (.value document) text) :
      HasText (.value document) (before ++ text ++ after)
  | lastItem {item : Document} {text : List Char} (only : HasText (.value item) text) :
      HasText (.items [item]) (text ++ [']'])
  | nextItem {item : Document} {items : List Document} {text others : List Char}
      (first : HasText (.value item) text) (rest : HasText (.items items) others) :
      HasText (.items (item :: items)) (text ++ ',' :: others)
  | lastMember {content : Except Fault String} {value : Document} {key text : List Char}
      (name : HasText (.value (.text content)) key) (only : HasText (.value value) text) :
      HasText (.members [(.text content, value)]) (key ++ ':' :: (text ++ ['\x7d']))
  | nextMember {content : Except Fault String} {value : Document}
      {members : List (Document × Document)} {key text others : List Char}
      (name : HasText (.value (.text content)) key) (first : HasText (.value value) text)
      (rest : HasText (.members members) others) :
      HasText (.members ((.text content, value) :: members)) (key ++ ':' :: (text ++ ',' :: others))

/-- The text is a text of the document. -/
def HasText (document : Document) (text : String) : Prop :=
  (Phrase.value document).HasText text.toList

/-! ## Blanks -/

theorem allBlank_nil : AllBlank [] :=
  nofun

theorem skipBlanks_cons {first : Char} (printed : isBlank first = false) (rest : List Char) :
    skipBlanks (first :: rest) = first :: rest := by
  rw [skipBlanks, List.dropWhile_cons_of_neg]
  simp [printed]

theorem skipBlanks_append {blanks : List Char} (blank : AllBlank blanks) (input : List Char) :
    skipBlanks (blanks ++ input) = skipBlanks input :=
  List.dropWhile_append_of_pos blank

/-- A text is its first blanks and the rest, which begins with no blank. -/
theorem exists_blanks (input : List Char) :
    ∃ blanks, AllBlank blanks ∧ input = blanks ++ skipBlanks input := by
  refine ⟨input.takeWhile isBlank, ?_, List.takeWhile_append_dropWhile.symm⟩
  intro character member
  exact List.mem_takeWhile_imp member

theorem skipBlanks_skipBlanks (input : List Char) :
    skipBlanks (skipBlanks input) = skipBlanks input :=
  List.dropWhile_idempotent _ input

theorem isBlank_eq_true_iff {character : Char} :
    isBlank character = true ↔
      character = ' ' ∨ character = '\n' ∨ character = '\t' ∨ character = '\r' := by
  simp [isBlank, or_assoc]

theorem endsNumber_append {blanks rest : List Char} (blank : AllBlank blanks)
    (ends : EndsNumber rest) : EndsNumber (blanks ++ rest) := by
  cases blanks with
  | nil => exact ends
  | cons character blanks =>
      intro first member
      cases member
      rcases isBlank_eq_true_iff.mp (blank character List.mem_cons_self)
        with rfl | rfl | rfl | rfl <;> decide

/-- Nothing that may follow a value goes on with a number. -/
theorem endsNumber_cons {character : Char} {rest : List Char}
    (mark : character ∈ [',', ']', '\x7d', ':']) : EndsNumber (character :: rest) := by
  intro first member
  cases member
  simp only [List.mem_cons, List.not_mem_nil, or_false] at mark
  rcases mark with rfl | rfl | rfl | rfl <;> decide

/-! ## What stands in front -/

theorem isBlank_of_isDigit {digit : Char} (isDigit : digit.isDigit = true) :
    isBlank digit = false := by
  rw [← Bool.not_eq_true, isBlank_eq_true_iff]
  rintro (rfl | rfl | rfl | rfl) <;> cases isDigit

theorem readValue_digit {digit : Char} (isDigit : digit.isDigit = true) (fuel : Nat)
    (rest : List Char) :
    readValue (fuel + 1) (digit :: rest) = readMagnitude false (digit :: rest) := by
  rw [readValue, skipBlanks_cons (isBlank_of_isDigit isDigit)]
  split
  -- The words, the brackets, the quote and the sign begin with no digit.
  all_goals simp_all

theorem readValue_skipBlanks (fuel : Nat) (input : List Char) :
    readValue fuel (skipBlanks input) = readValue fuel input := by
  cases fuel with
  | zero => rfl
  | succ fuel => rw [readValue, readValue, skipBlanks_skipBlanks]

theorem readValue_append {blanks : List Char} (blank : AllBlank blanks) (fuel : Nat)
    (input : List Char) : readValue fuel (blanks ++ input) = readValue fuel input := by
  rw [← readValue_skipBlanks, skipBlanks_append blank, readValue_skipBlanks]

theorem readItems_skipBlanks (fuel : Nat) (input : List Char) :
    readItems fuel (skipBlanks input) = readItems fuel input := by
  cases fuel with
  | zero => rfl
  | succ fuel => rw [readItems, readItems, readValue_skipBlanks]

theorem readMembers_skipBlanks (fuel : Nat) (input : List Char) :
    readMembers fuel (skipBlanks input) = readMembers fuel input := by
  cases fuel with
  | zero => rfl
  | succ fuel => rw [readMembers, readMembers, readValue_skipBlanks]

/-- Behind its blanks the text goes on, and not with a closing bracket. -/
def Continues (text : List Char) : Prop :=
  ∃ first tail, skipBlanks text = first :: tail ∧ first ≠ ']' ∧ first ≠ '\x7d'

theorem Continues.append {text : List Char} (continues : Continues text) (rest : List Char) :
    Continues (text ++ rest) := by
  obtain ⟨first, tail, front, inner⟩ := continues
  refine ⟨first, tail ++ rest, ?_, inner⟩
  rw [skipBlanks, List.dropWhile_append, ← skipBlanks, front]
  rfl

theorem continues_cons {first : Char} (printed : isBlank first = false)
    (inner : first ≠ ']' ∧ first ≠ '\x7d') (tail : List Char) : Continues (first :: tail) :=
  ⟨first, tail, skipBlanks_cons printed tail, inner⟩

theorem continues_digit {digit : Char} (isDigit : digit.isDigit = true) (tail : List Char) :
    Continues (digit :: tail) := by
  have inner : digit ≠ ']' ∧ digit ≠ '\x7d' := by
    constructor <;> rintro rfl <;> cases isDigit
  exact continues_cons (isBlank_of_isDigit isDigit) inner tail

/-- Every phrase goes on with a value. -/
theorem Phrase.HasText.continues {phrase : Phrase} {text : List Char}
    (written : phrase.HasText text) : Continues text := by
  induction written with
  | null => exact continues_cons (by decide) (by decide) _
  | truth value => cases value <;> exact continues_cons (by decide) (by decide) _
  | number read =>
      obtain ⟨digit, tail, rfl, isDigit⟩ := exists_digit_of_readMagnitude read
      exact continues_digit isDigit tail
  | negative _ => exact continues_cons (by decide) (by decide) _
  | text _ => exact continues_cons (by decide) (by decide) _
  | emptyList _ => exact continues_cons (by decide) (by decide) _
  | list _ _ => exact continues_cons (by decide) (by decide) _
  | emptyObject _ => exact continues_cons (by decide) (by decide) _
  | object _ _ => exact continues_cons (by decide) (by decide) _
  | @spaced document before text after front _ _ induction =>
      obtain ⟨first, tail, begins, inner⟩ := induction.append after
      rw [List.append_assoc]
      exact ⟨first, tail, (skipBlanks_append front _).trans begins, inner⟩
  | lastItem _ induction => exact induction.append _
  | nextItem _ _ induction _ => exact induction.append _
  | lastMember _ _ induction _ => exact induction.append _
  | nextMember _ _ _ induction _ _ => exact induction.append _

/-! ## Every text of the grammar is read -/

section

variable {input : List Char} {first : Char} {tail : List Char} (fuel : Nat)

theorem readValue_emptyList {rest : List Char} (front : skipBlanks input = ']' :: rest) :
    readValue (fuel + 1) ('[' :: input) = (.list [] .closed, some rest) := by
  rw [readValue, skipBlanks_cons (by decide)]
  simp only [front]

theorem readValue_list (front : skipBlanks input = first :: tail) (inner : first ≠ ']') :
    readValue (fuel + 1) ('[' :: input) =
      (.list (readItems fuel input).1 (readItems fuel input).2.1, (readItems fuel input).2.2) := by
  rw [readValue, skipBlanks_cons (by decide), ← readItems_skipBlanks fuel input]
  simp only [front]
  split
  next same =>
    cases same
    exact absurd rfl inner
  next same => cases same
  next => rfl

theorem readValue_emptyObject {rest : List Char} (front : skipBlanks input = '\x7d' :: rest) :
    readValue (fuel + 1) ('\x7b' :: input) = (.object [] .closed, some rest) := by
  rw [readValue, skipBlanks_cons (by decide)]
  simp only [front]

theorem readValue_object (front : skipBlanks input = first :: tail) (inner : first ≠ '\x7d') :
    readValue (fuel + 1) ('\x7b' :: input) =
      (.object (readMembers fuel input).1 (readMembers fuel input).2.1,
        (readMembers fuel input).2.2) := by
  rw [readValue, skipBlanks_cons (by decide), ← readMembers_skipBlanks fuel input]
  simp only [front]
  split
  next same =>
    cases same
    exact absurd rfl inner
  next same => cases same
  next => rfl

end

/--
The reader finds the phrase where it stands, if its fuel lasts, and leaves at most blanks in front
of what follows.
-/
def Phrase.IsFound (text : List Char) : Phrase → Prop
  | .value document => ∀ fuel rest, 2 * text.length ≤ fuel → EndsNumber rest →
      ∃ blanks, AllBlank blanks
        ∧ readValue fuel (text ++ rest) = (document, some (blanks ++ rest))
  | .items parts => ∀ fuel rest, 2 * text.length ≤ fuel →
      readItems fuel (text ++ rest) = (parts, .closed, some rest)
  | .members parts => ∀ fuel rest, 2 * text.length ≤ fuel →
      readMembers fuel (text ++ rest) = (parts, .closed, some rest)

/-- A token is found by a reader that takes it in front of whatever does not go on with it. -/
theorem Phrase.isFound_of_token {text : List Char} {document : Document} (given : text ≠ [])
    (read : ∀ fuel rest, EndsNumber rest →
      readValue (fuel + 1) (text ++ rest) = (document, some rest)) :
    (Phrase.value document).IsFound text := by
  intro fuel rest enough ends
  have long := List.length_pos_iff.mpr given
  obtain ⟨fuel, rfl⟩ : ∃ less, fuel = less + 1 := ⟨fuel - 1, by omega⟩
  exact ⟨[], allBlank_nil, read fuel rest ends⟩

/-- The reader finds a phrase in each of its texts. -/
theorem Phrase.HasText.isFound {phrase : Phrase} {text : List Char}
    (written : phrase.HasText text) : phrase.IsFound text := by
  induction written with
  | null => exact Phrase.isFound_of_token (by decide) fun _ _ _ => rfl
  | truth value =>
      cases value with
      | false => exact Phrase.isFound_of_token (by decide) fun _ _ _ => rfl
      | true => exact Phrase.isFound_of_token (by decide) fun _ _ _ => rfl
  | @number numeral digits read =>
      obtain ⟨digit, tail, front, isDigit⟩ := exists_digit_of_readMagnitude read
      obtain ⟨written, same, again⟩ := readMagnitude_append read
      rw [List.append_nil] at same
      subst same
      refine Phrase.isFound_of_token (front ▸ List.cons_ne_nil _ _) fun fuel rest ends => ?_
      have taken := again rest ends
      rw [front, List.cons_append] at taken ⊢
      exact (readValue_digit isDigit fuel _).trans taken
  | @negative numeral digits read =>
      obtain ⟨written, same, again⟩ := readMagnitude_append read
      rw [List.append_nil] at same
      subst same
      exact Phrase.isFound_of_token (List.cons_ne_nil _ _) fun fuel rest ends => again rest ends
  | @text units quoted scanned =>
      obtain ⟨written, same, again⟩ := scanText_append scanned
      rw [List.append_nil] at same
      subst same
      refine Phrase.isFound_of_token (List.cons_ne_nil _ _) fun fuel rest _ => ?_
      change readText (quoted ++ rest) = _
      rw [readText, again]
  | @emptyList blanks blank =>
      refine Phrase.isFound_of_token (List.cons_ne_nil _ _) fun fuel rest _ => ?_
      rw [List.cons_append, List.append_assoc]
      exact readValue_emptyList fuel (skipBlanks_append blank (']' :: rest))
  | @list items text inner induction =>
      intro fuel rest enough _
      rw [List.length_cons] at enough
      obtain ⟨fuel, rfl⟩ : ∃ less, fuel = less + 1 := ⟨fuel - 1, by omega⟩
      obtain ⟨first, tail, front, inside, _⟩ := inner.continues.append rest
      refine ⟨[], allBlank_nil, ?_⟩
      rw [List.cons_append, readValue_list fuel front inside, induction fuel rest (by omega)]
      rfl
  | @emptyObject blanks blank =>
      refine Phrase.isFound_of_token (List.cons_ne_nil _ _) fun fuel rest _ => ?_
      rw [List.cons_append, List.append_assoc]
      exact readValue_emptyObject fuel (skipBlanks_append blank ('\x7d' :: rest))
  | @object members text inner induction =>
      intro fuel rest enough _
      rw [List.length_cons] at enough
      obtain ⟨fuel, rfl⟩ : ∃ less, fuel = less + 1 := ⟨fuel - 1, by omega⟩
      obtain ⟨first, tail, front, _, inside⟩ := inner.continues.append rest
      refine ⟨[], allBlank_nil, ?_⟩
      rw [List.cons_append, readValue_object fuel front inside, induction fuel rest (by omega)]
      rfl
  | @spaced document before text after front back _ induction =>
      intro fuel rest enough ends
      rw [List.length_append, List.length_append] at enough
      obtain ⟨blanks, blank, read⟩ := induction fuel (after ++ rest) (by omega)
        (endsNumber_append back ends)
      refine ⟨blanks ++ after, ?_, ?_⟩
      · exact fun character member => (List.mem_append.mp member).elim (blank _) (back _)
      · rw [List.append_assoc, List.append_assoc, readValue_append front, read, List.append_assoc]
  | @lastItem item text _ induction =>
      intro fuel rest enough
      rw [List.length_append, List.length_singleton] at enough
      obtain ⟨fuel, rfl⟩ : ∃ less, fuel = less + 1 := ⟨fuel - 1, by omega⟩
      obtain ⟨blanks, blank, read⟩ := induction fuel (']' :: rest) (by omega)
        (endsNumber_cons (by decide))
      rw [List.append_assoc, List.singleton_append, readItems, read]
      simp only [skipBlanks_append blank]
      rfl
  | @nextItem item items text others _ _ first rest =>
      intro fuel behind enough
      rw [List.length_append, List.length_cons] at enough
      obtain ⟨fuel, rfl⟩ : ∃ less, fuel = less + 1 := ⟨fuel - 1, by omega⟩
      obtain ⟨blanks, blank, read⟩ := first fuel (',' :: (others ++ behind)) (by omega)
        (endsNumber_cons (by decide))
      rw [List.append_assoc, List.cons_append, readItems, read]
      simp only [skipBlanks_append blank, skipBlanks_cons (by decide : isBlank ',' = false),
        rest fuel behind (by omega)]
  | @lastMember content value key text _ _ name only =>
      intro fuel rest enough
      rw [List.length_append, List.length_cons, List.length_append, List.length_singleton] at enough
      obtain ⟨fuel, rfl⟩ : ∃ less, fuel = less + 1 := ⟨fuel - 1, by omega⟩
      obtain ⟨blanks, blank, named⟩ := name fuel (':' :: (text ++ '\x7d' :: rest)) (by omega)
        (endsNumber_cons (by decide))
      obtain ⟨others, other, valued⟩ := only fuel ('\x7d' :: rest) (by omega)
        (endsNumber_cons (by decide))
      rw [List.append_assoc, List.cons_append, List.append_assoc, List.singleton_append,
        readMembers, named]
      simp only [skipBlanks_append blank, skipBlanks_cons (by decide : isBlank ':' = false), valued,
        skipBlanks_append other, skipBlanks_cons (by decide : isBlank '\x7d' = false)]
  | @nextMember content value members key text others _ _ _ name first rest =>
      intro fuel behind enough
      rw [List.length_append, List.length_cons, List.length_append, List.length_cons] at enough
      obtain ⟨fuel, rfl⟩ : ∃ less, fuel = less + 1 := ⟨fuel - 1, by omega⟩
      obtain ⟨blanks, blank, named⟩ := name fuel (':' :: (text ++ ',' :: (others ++ behind)))
        (by omega) (endsNumber_cons (by decide))
      obtain ⟨spaces, space, valued⟩ := first fuel (',' :: (others ++ behind)) (by omega)
        (endsNumber_cons (by decide))
      rw [List.append_assoc, List.cons_append, List.append_assoc, List.cons_append, readMembers,
        named]
      simp only [skipBlanks_append blank, skipBlanks_cons (by decide : isBlank ':' = false), valued,
        skipBlanks_append space, skipBlanks_cons (by decide : isBlank ',' = false),
        rest fuel behind (by omega)]

/-- The reading of a text of a document is the document, with nothing behind it. -/
theorem HasText.reading {document : Document} {text : String} (written : document.HasText text) :
    Reading.ofText text = ⟨document, false⟩ := by
  have ends : EndsNumber [] := by
    intro character member
    cases member
  obtain ⟨blanks, blank, read⟩ := Phrase.HasText.isFound written (2 * text.toList.length + 2) []
    (by omega) ends
  rw [List.append_nil, List.append_nil] at read
  have behind := skipBlanks_append blank []
  rw [List.append_nil] at behind
  rw [Reading.ofText]
  simp only [read, behind]
  rfl

/-- A text gives what its document gives. -/
theorem HasText.ofText_eq {Value : Type} {document : Document} {text : String}
    (written : document.HasText text) (decoder : Decoder Value) :
    decoder.ofText text = decoder document := by
  rw [Decoder.ofText, written.reading]
  change decoder document >>= _ = _
  cases decoder document <;> rfl

/-- Nothing in a phrase that has a text is at fault. -/
def Phrase.IsFaultless : Phrase → Prop
  | .value document => document.skip = .ok ()
  | .items parts => skipItems .closed parts = .ok ()
  | .members parts => skipMembers .closed parts = .ok ()

theorem Phrase.HasText.isFaultless {phrase : Phrase} {text : List Char}
    (written : phrase.HasText text) : phrase.IsFaultless := by
  induction written with
  | null | truth _ | number _ | negative _ | text _ | emptyList _ | emptyObject _ => rfl
  | list _ inner | object _ inner => exact inner
  | spaced _ _ _ inner => exact inner
  | lastItem _ only => exact bind_eq_ok.mpr ⟨(), only, rfl⟩
  | nextItem _ _ first rest => exact bind_eq_ok.mpr ⟨(), first, rest⟩
  | lastMember _ _ _ only => exact bind_eq_ok.mpr ⟨(), only, rfl⟩
  | nextMember _ _ _ _ first rest => exact bind_eq_ok.mpr ⟨(), first, rest⟩

/-! ## Passing over values -/

theorem finish_eq_ok_iff {ending : Ending} : Decoder.finish ending = .ok () ↔ ending = .closed := by
  cases ending with
  | closed => exact iff_of_true rfl rfl
  | cut fault => exact iff_of_false nofun nofun

theorem skipItems_eq_ok_iff {ending : Ending} {items : List Document} :
    skipItems ending items = .ok () ↔
      ending = .closed ∧ ∀ item ∈ items, item.skip = .ok () := by
  induction items with
  | nil =>
      rw [← finish_eq_ok_iff]
      exact (and_iff_left (List.forall_mem_nil _)).symm
  | cons item items induction =>
      rw [List.forall_mem_cons, skipItems, bind_eq_ok]
      constructor
      · rintro ⟨_, first, rest⟩
        obtain ⟨closed, others⟩ := induction.mp rest
        exact ⟨closed, first, others⟩
      · rintro ⟨closed, first, others⟩
        exact ⟨(), first, induction.mpr ⟨closed, others⟩⟩

theorem skipMembers_eq_ok_iff {ending : Ending} {members : List (Document × Document)} :
    skipMembers ending members = .ok () ↔
      ending = .closed ∧ ∀ member ∈ members,
        (∃ content, member.1 = .text content) ∧ member.2.skip = .ok () := by
  induction members with
  | nil =>
      rw [← finish_eq_ok_iff]
      exact (and_iff_left (List.forall_mem_nil _)).symm
  | cons member members induction =>
      rcases member with ⟨key, value⟩
      rw [List.forall_mem_cons]
      cases key with
      | text content =>
          change value.skip >>= _ = _ ↔ _
          rw [bind_eq_ok]
          constructor
          · rintro ⟨_, first, rest⟩
            obtain ⟨closed, others⟩ := induction.mp rest
            exact ⟨closed, ⟨⟨content, rfl⟩, first⟩, others⟩
          · rintro ⟨closed, ⟨_, first⟩, others⟩
            exact ⟨(), first, induction.mpr ⟨closed, others⟩⟩
      | broken part kept skipped =>
          refine iff_of_false ?_ fun given => nomatch given.2.1.1
          cases part <;> exact nofun
      | null | truth _ | number _ | list _ _ | object _ _ =>
          exact iff_of_false nofun fun given => nomatch given.2.1.1

/-! ## Only texts of the grammar are read without faults -/

/-- What has been read of an input is a text of the phrase, and the rest is left. -/
def Phrase.IsTaken (phrase : Phrase) (input : List Char) (left : Option (List Char)) : Prop :=
  ∃ text rest, left = some rest ∧ input = text ++ rest ∧ phrase.HasText text

theorem isTaken_of_readText {input : List Char} {document : Document}
    {left : Option (List Char)} (read : readText input = (document, left))
    (faultless : document.skip = .ok ()) :
    (Phrase.value document).IsTaken ('"' :: input) left := by
  rw [readText] at read
  split at read
  next units rest scanned =>
    cases read
    obtain ⟨quoted, rfl, again⟩ := scanText_append scanned
    have alone := again []
    rw [List.append_nil] at alone
    exact ⟨'"' :: quoted, rest, rfl, rfl, Phrase.HasText.text alone⟩
  next =>
    split at read
    all_goals
      cases read
      cases faultless

theorem isTaken_of_readWord {word : String} {first : Char} {value document : Document}
    {input : List Char} {left : Option (List Char)}
    (written : (Phrase.value value).HasText (first :: word.toList))
    (read : readWord word value input = (document, left)) (faultless : document.skip = .ok ()) :
    (Phrase.value document).IsTaken (first :: input) left := by
  rw [readWord] at read
  split at read
  next rest matched =>
    cases read
    exact ⟨_, rest, rfl, by rw [matchWord_eq_ok_iff.mp matched]; rfl, written⟩
  next =>
    cases read
    cases faultless

/-- A reader with this much fuel takes nothing without faults but texts of the grammar. -/
structure TakesPhrases (fuel : Nat) : Prop where
  value : ∀ {input : List Char} {document : Document} {left : Option (List Char)},
    readValue fuel input = (document, left) → document.skip = .ok () →
      (Phrase.value document).IsTaken input left
  items : ∀ {input : List Char} {items : List Document} {ending : Ending}
    {left : Option (List Char)}, readItems fuel input = (items, ending, left) →
      skipItems ending items = .ok () → ending = .closed ∧ (Phrase.items items).IsTaken input left
  members : ∀ {input : List Char} {members : List (Document × Document)} {ending : Ending}
    {left : Option (List Char)}, readMembers fuel input = (members, ending, left) →
      skipMembers ending members = .ok () →
        ending = .closed ∧ (Phrase.members members).IsTaken input left

theorem Phrase.IsTaken.of_skipBlanks {document : Document} {input : List Char}
    {left : Option (List Char)} (taken : (Phrase.value document).IsTaken (skipBlanks input) left) :
    (Phrase.value document).IsTaken input left := by
  obtain ⟨blanks, blank, split⟩ := exists_blanks input
  obtain ⟨text, rest, found, front, written⟩ := taken
  refine ⟨blanks ++ text ++ [], rest, found, ?_, Phrase.HasText.spaced blank allBlank_nil written⟩
  rw [split, front, List.append_nil, List.append_assoc]

section

variable {fuel : Nat} (takes : TakesPhrases fuel) {input : List Char} {document : Document}
  {left : Option (List Char)} (faultless : document.skip = .ok ())

include takes faultless

theorem isTaken_of_readList (read : readValue (fuel + 1) ('[' :: input) = (document, left)) :
    (Phrase.value document).IsTaken ('[' :: input) left := by
  cases front : skipBlanks input with
  | nil =>
      rw [readValue, skipBlanks_cons (by decide)] at read
      simp only [front] at read
      cases read
      cases faultless
  | cons first tail =>
      by_cases closed : first = ']'
      · subst closed
        obtain ⟨blanks, blank, same⟩ := exists_blanks input
        rw [readValue_emptyList fuel front] at read
        cases read
        refine ⟨'[' :: (blanks ++ [']']), tail, rfl, ?_, Phrase.HasText.emptyList blank⟩
        rw [same, front]
        simp
      · rw [readValue_list fuel front closed] at read
        cases read
        obtain ⟨ended, text, rest, found, same, written⟩ := takes.items rfl faultless
        rw [ended]
        exact ⟨'[' :: text, rest, found, congrArg ('[' :: ·) same, Phrase.HasText.list written⟩

theorem isTaken_of_readObject (read : readValue (fuel + 1) ('\x7b' :: input) = (document, left)) :
    (Phrase.value document).IsTaken ('\x7b' :: input) left := by
  cases front : skipBlanks input with
  | nil =>
      rw [readValue, skipBlanks_cons (by decide)] at read
      simp only [front] at read
      cases read
      cases faultless
  | cons first tail =>
      by_cases closed : first = '\x7d'
      · subst closed
        obtain ⟨blanks, blank, same⟩ := exists_blanks input
        rw [readValue_emptyObject fuel front] at read
        cases read
        refine ⟨'\x7b' :: (blanks ++ ['\x7d']), tail, rfl, ?_, Phrase.HasText.emptyObject blank⟩
        rw [same, front]
        simp
      · rw [readValue_object fuel front closed] at read
        cases read
        obtain ⟨ended, text, rest, found, same, written⟩ := takes.members rfl faultless
        rw [ended]
        exact ⟨'\x7b' :: text, rest, found, congrArg ('\x7b' :: ·) same,
          Phrase.HasText.object written⟩

theorem isTaken_of_readValue (read : readValue (fuel + 1) input = (document, left)) :
    (Phrase.value document).IsTaken input left := by
  apply Phrase.IsTaken.of_skipBlanks
  rw [← readValue_skipBlanks] at read
  have whole := read
  rw [readValue, skipBlanks_skipBlanks] at read
  generalize skipBlanks input = front at read whole ⊢
  split at read
  next =>
    cases read
    cases faultless
  next rest => exact isTaken_of_readText read faultless
  next rest => exact isTaken_of_readList takes faultless whole
  next rest => exact isTaken_of_readObject takes faultless whole
  next rest => exact isTaken_of_readWord Phrase.HasText.null read faultless
  next rest => exact isTaken_of_readWord (Phrase.HasText.truth true) read faultless
  next rest => exact isTaken_of_readWord (Phrase.HasText.truth false) read faultless
  next rest =>
    obtain ⟨numeral, digits, rest, rfl, rfl, rfl, alone⟩ :=
      exists_digits_of_readMagnitude read faultless
    exact ⟨'-' :: digits, rest, rfl, rfl, Phrase.HasText.negative alone⟩
  next character rest _ _ _ _ _ _ _ =>
    split at read
    next =>
      obtain ⟨numeral, digits, rest, rfl, rfl, same, alone⟩ :=
        exists_digits_of_readMagnitude read faultless
      exact ⟨digits, rest, rfl, same, Phrase.HasText.number alone⟩
    next =>
      cases read
      cases faultless

/-- A value and the blanks behind it, up to the next mark. -/
theorem exists_text_of_readValue {behind rest : List Char} {mark : Char}
    (read : readValue fuel input = (document, some behind))
    (front : skipBlanks behind = mark :: rest) :
    ∃ text, input = text ++ mark :: rest ∧ (Phrase.value document).HasText text := by
  obtain ⟨text, behind, found, rfl, written⟩ := takes.value read faultless
  cases found
  obtain ⟨blanks, blank, same⟩ := exists_blanks behind
  refine ⟨[] ++ text ++ blanks, ?_, Phrase.HasText.spaced allBlank_nil blank written⟩
  rw [List.nil_append, List.append_assoc, ← front, ← same]

omit faultless in
theorem isTaken_of_readItems {items : List Document} {ending : Ending}
    (read : readItems (fuel + 1) input = (items, ending, left))
    (faultless : skipItems ending items = .ok ()) :
    ending = .closed ∧ (Phrase.items items).IsTaken input left := by
  rw [readItems] at read
  split at read
  next item _ =>
    cases read
    cases (skipItems_eq_ok_iff.mp faultless).1
  next item behind valued =>
    split at read
    next rest front =>
      cases read
      obtain ⟨_, first, others⟩ := bind_eq_ok.mp faultless
      obtain ⟨text, rfl, written⟩ := exists_text_of_readValue takes first valued front
      obtain ⟨closed, texts, rest, found, rfl, more⟩ := takes.items rfl others
      exact ⟨closed, text ++ ',' :: texts, rest, found, by simp, .nextItem written more⟩
    next rest front =>
      cases read
      obtain ⟨_, first, _⟩ := bind_eq_ok.mp faultless
      obtain ⟨text, rfl, written⟩ := exists_text_of_readValue takes first valued front
      exact ⟨rfl, text ++ [']'], rest, rfl, by simp, .lastItem written⟩
    next =>
      cases read
      cases (skipItems_eq_ok_iff.mp faultless).1
    next =>
      cases read
      cases (skipItems_eq_ok_iff.mp faultless).1

omit faultless in
theorem isTaken_of_readMembers {members : List (Document × Document)} {ending : Ending}
    (read : readMembers (fuel + 1) input = (members, ending, left))
    (faultless : skipMembers ending members = .ok ()) :
    ending = .closed ∧ (Phrase.members members).IsTaken input left := by
  rw [readMembers] at read
  split at read
  next content behind named =>
    split at read
    next tail colon =>
      obtain ⟨key, rfl, name⟩ := exists_text_of_readValue takes rfl named colon
      split at read
      next value _ =>
        cases read
        cases (skipMembers_eq_ok_iff.mp faultless).1
      next value behind valued =>
        split at read
        next rest front =>
          cases read
          obtain ⟨_, first, others⟩ := bind_eq_ok.mp faultless
          obtain ⟨text, rfl, written⟩ := exists_text_of_readValue takes first valued front
          obtain ⟨closed, texts, rest, found, rfl, more⟩ := takes.members rfl others
          exact ⟨closed, key ++ ':' :: (text ++ ',' :: texts), rest, found, by simp,
            .nextMember name written more⟩
        next rest front =>
          cases read
          obtain ⟨_, first, _⟩ := bind_eq_ok.mp faultless
          obtain ⟨text, rfl, written⟩ := exists_text_of_readValue takes first valued front
          exact ⟨rfl, key ++ ':' :: (text ++ ['\x7d']), rest, rfl, by simp,
            .lastMember name written⟩
        next =>
          cases read
          cases (skipMembers_eq_ok_iff.mp faultless).1
        next =>
          cases read
          cases (skipMembers_eq_ok_iff.mp faultless).1
    next =>
      cases read
      cases faultless
    next =>
      cases read
      cases faultless
  next key _ _ _ =>
    cases read
    cases key with
    | broken part kept skipped => cases part <;> cases faultless
    | null | truth _ | number _ | text _ | list _ _ | object _ _ => cases faultless

end

/-- Whatever fuel a reader has, it takes nothing without faults but texts of the grammar. -/
theorem takesPhrases (fuel : Nat) : TakesPhrases fuel := by
  induction fuel with
  | zero =>
      constructor
      · intro input document left read faultless
        cases read
        cases faultless
      · intro input items ending left read faultless
        cases read
        cases faultless
      · intro input members ending left read faultless
        cases read
        cases faultless
  | succ fuel takes =>
      constructor
      · exact fun read faultless => isTaken_of_readValue takes faultless read
      · exact fun read faultless => isTaken_of_readItems takes read faultless
      · exact fun read faultless => isTaken_of_readMembers takes read faultless

/-- A text that is read without faults and has nothing behind is a text of its document. -/
theorem hasText_of_reading {text : String}
    (faultless : (Reading.ofText text).document.skip = .ok ())
    (ended : (Reading.ofText text).trailing = false) :
    (Reading.ofText text).document.HasText text := by
  cases read : readValue (2 * text.toList.length + 2) text.toList with
  | mk document left =>
      have reading : Reading.ofText text = match left with
          | some rest => ⟨document, !(skipBlanks rest).isEmpty⟩
          | none => ⟨document, false⟩ := by
        rw [Reading.ofText]
        simp only [read]
        cases left <;> rfl
      have same : (Reading.ofText text).document = document := by
        rw [reading]
        cases left <;> rfl
      rw [same] at faultless ⊢
      obtain ⟨front, rest, rfl, split, written⟩ := (takesPhrases _).value read faultless
      rw [reading] at ended
      obtain ⟨blanks, blank, same⟩ := exists_blanks rest
      have empty : skipBlanks rest = [] := by simpa using ended
      rw [HasText, split, same, empty, List.append_nil]
      exact Phrase.HasText.spaced allBlank_nil blank written

/-- A document without faults is read from its own texts and from no others. -/
theorem hasText_iff {text : String} {document : Document} :
    document.HasText text ↔
      Reading.ofText text = ⟨document, false⟩ ∧ document.skip = .ok () := by
  constructor
  · exact fun written => ⟨written.reading, Phrase.HasText.isFaultless written⟩
  · rintro ⟨reading, faultless⟩
    have written := @hasText_of_reading text
    rw [reading] at written
    exact written faultless rfl

/-! ## Documents with texts -/

/-- The document has a text. -/
def IsValid (document : Document) : Prop :=
  ∃ text, document.HasText text

theorem Phrase.HasText.isValid {document : Document} {text : List Char}
    (written : (Phrase.value document).HasText text) : document.IsValid := by
  refine ⟨String.ofList text, ?_⟩
  rw [Document.HasText, String.toList_ofList]
  exact written

theorem IsValid.skip {document : Document} (valid : document.IsValid) :
    document.skip = .ok () := by
  obtain ⟨text, written⟩ := valid
  exact (hasText_iff.mp written).2

theorem Phrase.hasText_quoted (content : String) :
    (Phrase.value (.ofString content)).HasText (Content.quoted content) := by
  have written := Phrase.HasText.text (scanText_flatMap content.toList [])
  rw [joinUnits_unit] at written
  change (Phrase.value (.text (.ok (String.ofList content.toList)))).HasText _ at written
  rwa [String.ofList_toList] at written

theorem ofString_isValid (content : String) : (ofString content).IsValid :=
  (Phrase.hasText_quoted content).isValid

/-- The key of the member is a text, and both key and value have texts. -/
structure IsValidMember (member : Document × Document) : Prop where
  named : ∃ content, member.1 = .text content
  key : member.1.IsValid
  value : member.2.IsValid

/-- The items and members of a phrase have texts. -/
def Phrase.HasValidParts : Phrase → Prop
  | .value (.list parts ending) => ending = .closed ∧ ∀ item ∈ parts, item.IsValid
  | .value (.object parts ending) => ending = .closed ∧ ∀ member ∈ parts, IsValidMember member
  | .value _ => True
  | .items parts => ∀ item ∈ parts, item.IsValid
  | .members parts => ∀ member ∈ parts, IsValidMember member

theorem Phrase.HasText.hasValidParts {phrase : Phrase} {text : List Char}
    (written : phrase.HasText text) : phrase.HasValidParts := by
  induction written with
  | null | truth _ | number _ | negative _ | text _ => trivial
  | emptyList _ | emptyObject _ => exact ⟨rfl, List.forall_mem_nil _⟩
  | list _ parts | object _ parts => exact ⟨rfl, parts⟩
  | spaced _ _ _ parts => exact parts
  | lastItem only _ => exact List.forall_mem_singleton.mpr only.isValid
  | nextItem first _ _ rest => exact List.forall_mem_cons.mpr ⟨first.isValid, rest⟩
  | lastMember name only _ _ =>
      exact List.forall_mem_singleton.mpr ⟨⟨_, rfl⟩, name.isValid, only.isValid⟩
  | nextMember name first _ _ _ rest =>
      exact List.forall_mem_cons.mpr ⟨⟨⟨_, rfl⟩, name.isValid, first.isValid⟩, rest⟩

/-- A list has a text if it is closed and each of its items has one. -/
theorem isValid_list_iff {items : List Document} {ending : Ending} :
    (list items ending).IsValid ↔ ending = .closed ∧ ∀ item ∈ items, item.IsValid := by
  constructor
  · rintro ⟨text, written⟩
    exact written.hasValidParts
  · rintro ⟨rfl, each⟩
    cases items with
    | nil => exact (Phrase.HasText.emptyList allBlank_nil).isValid
    | cons item items =>
        have written : ∃ text, (Phrase.items (item :: items)).HasText text := by
          induction items generalizing item with
          | nil =>
              obtain ⟨text, written⟩ := each item List.mem_cons_self
              exact ⟨_, Phrase.HasText.lastItem written⟩
          | cons other items induction =>
              obtain ⟨⟨text, written⟩, each⟩ := List.forall_mem_cons.mp each
              obtain ⟨texts, rest⟩ := induction other each
              exact ⟨_, Phrase.HasText.nextItem written rest⟩
        obtain ⟨text, written⟩ := written
        exact (Phrase.HasText.list written).isValid

/-- An object has a text if it is closed and each of its members has one. -/
theorem isValid_object_iff {members : List (Document × Document)} {ending : Ending} :
    (object members ending).IsValid ↔
      ending = .closed ∧ ∀ member ∈ members, IsValidMember member := by
  constructor
  · rintro ⟨text, written⟩
    exact written.hasValidParts
  · rintro ⟨rfl, each⟩
    cases members with
    | nil => exact (Phrase.HasText.emptyObject allBlank_nil).isValid
    | cons member members =>
        have written : ∃ text, (Phrase.members (member :: members)).HasText text := by
          induction members generalizing member with
          | nil =>
              rcases member with ⟨key, value⟩
              obtain ⟨⟨content, rfl⟩, ⟨name, named⟩, ⟨text, written⟩⟩ :=
                each _ List.mem_cons_self
              exact ⟨_, Phrase.HasText.lastMember named written⟩
          | cons other members induction =>
              rcases member with ⟨key, value⟩
              obtain ⟨first, later⟩ := List.forall_mem_cons.mp each
              obtain ⟨⟨content, rfl⟩, ⟨name, named⟩, ⟨text, written⟩⟩ := first
              obtain ⟨texts, rest⟩ := induction other later
              exact ⟨_, Phrase.HasText.nextMember named written rest⟩
        obtain ⟨text, written⟩ := written
        exact (Phrase.HasText.object written).isValid

end Document

end FlightGuard
