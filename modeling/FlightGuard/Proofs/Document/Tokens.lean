import FlightGuard.Document.Decoder
import FlightGuard.Proofs.Document.Quoting
import Mathlib.Data.List.Basic
import Mathlib.Data.List.TakeWhile

/-!
# Tokens

A word, a number or a text is read off its own characters.  What follows makes no difference, as
long as it does not go on with a number; so a token can be cut off the text in which it stands, and
set in front of something else.
-/

namespace FlightGuard

namespace Document

/-! ## Digits -/

/-- No digit follows. -/
def EndsDigits (rest : List Char) : Prop :=
  ∀ character ∈ rest.head?, character.isDigit = false

section

variable {digits rest : List Char} (numeric : ∀ digit ∈ digits, digit.isDigit = true)
  (ends : EndsDigits rest)

include numeric ends

theorem takeWhile_isDigit_append : (digits ++ rest).takeWhile Char.isDigit = digits := by
  rw [List.takeWhile_append_of_pos numeric]
  cases rest with
  | nil => simp
  | cons character rest => simp [ends character rfl]

theorem dropWhile_isDigit_append : (digits ++ rest).dropWhile Char.isDigit = rest := by
  rw [List.dropWhile_append_of_pos numeric]
  cases rest with
  | nil => rfl
  | cons character rest => simp [ends character rfl]

end

/-- A text is its first digits and the rest, which begins with no digit. -/
theorem exists_digits (input : List Char) :
    ∃ digits rest, input = digits ++ rest ∧ (∀ digit ∈ digits, digit.isDigit = true)
      ∧ EndsDigits rest := by
  refine ⟨input.takeWhile Char.isDigit, input.dropWhile Char.isDigit,
    List.takeWhile_append_dropWhile.symm, ?_, ?_⟩
  · intro digit member
    exact List.mem_takeWhile_imp member
  · intro character member
    have first := List.head?_dropWhile_not Char.isDigit input
    rw [member] at first
    exact first

/-! ## Numbers -/

/-- Nothing follows that a number goes on with. -/
def EndsNumber (rest : List Char) : Prop :=
  ∀ character ∈ rest.head?,
    character.isDigit = false ∧ character ≠ '.' ∧ character ≠ 'e' ∧ character ≠ 'E'

theorem EndsNumber.endsDigits {rest : List Char} (ends : EndsNumber rest) : EndsDigits rest :=
  fun character member => (ends character member).1

/-- A sign is taken off in front of any digit. -/
theorem exponentSign_append {input unsigned : List Char} {negative : Bool}
    (signed : exponentSign input = (negative, unsigned)) :
    ∃ sign, input = sign ++ unsigned ∧ ∀ {digit : Char} (other : List Char), digit.isDigit = true →
      exponentSign (sign ++ digit :: other) = (negative, digit :: other) := by
  rw [exponentSign.eq_def] at signed
  split at signed
  next rest =>
    cases signed
    exact ⟨['-'], rfl, fun _ _ => rfl⟩
  next rest =>
    cases signed
    exact ⟨['+'], rfl, fun _ _ => rfl⟩
  next =>
    cases signed
    refine ⟨[], rfl, fun other isDigit => ?_⟩
    rw [List.nil_append, exponentSign.eq_def]
    split
    next same =>
      cases same
      cases isDigit
    next same =>
      cases same
      cases isDigit
    next => rfl

/-- An exponent is read off its own characters, whatever follows that is no digit. -/
theorem readExponent_append {input rest : List Char} {exponent : Int}
    (read : readExponent input = (some exponent, rest)) :
    ∃ written, input = written ++ rest ∧ ∀ other, EndsDigits other →
      readExponent (written ++ other) = (some exponent, other) := by
  cases signed : exponentSign input with
  | mk negative unsigned =>
      obtain ⟨sign, rfl, signed'⟩ := exponentSign_append signed
      obtain ⟨digits, behind, rfl, numeric, ends⟩ := exists_digits unsigned
      simp only [readExponent, signed, takeWhile_isDigit_append numeric ends,
        dropWhile_isDigit_append numeric ends] at read
      cases digits with
      | nil => cases read
      | cons digit digits =>
          cases read
          refine ⟨sign ++ digit :: digits, (List.append_assoc _ _ _).symm, fun other ends => ?_⟩
          have again := signed' (digits ++ other) (numeric digit List.mem_cons_self)
          rw [List.append_assoc, List.cons_append]
          simp only [readExponent, again]
          rw [← List.cons_append, takeWhile_isDigit_append numeric ends,
            dropWhile_isDigit_append numeric ends]
          rfl

/-- Nothing follows that goes on with the digits of a number or has a point. -/
def EndsMantissa (rest : List Char) : Prop :=
  ∀ character ∈ rest.head?, character.isDigit = false ∧ character ≠ '.'

theorem EndsNumber.endsMantissa {rest : List Char} (ends : EndsNumber rest) : EndsMantissa rest :=
  fun character member => ⟨(ends character member).1, (ends character member).2.1⟩

/-- What stands behind the digits of a number is read off its own characters. -/
theorem readScale_append {negative whole : Bool} {digits places : Nat} {input rest : List Char}
    {document : Document}
    (read : readScale negative digits places whole input = (document, some rest)) :
    ∃ written, input = written ++ rest ∧ ∀ other, EndsNumber other →
      EndsMantissa (written ++ other)
        ∧ readScale negative digits places whole (written ++ other) = (document, some other) := by
  have plain : ∀ {document : Document},
      document = .number ⟨⟨negative, digits, -(places : Int)⟩, whole⟩ → ∀ other, EndsNumber other →
        readScale negative digits places whole other = (document, some other) := by
    rintro document rfl other ends
    rw [readScale.eq_def]
    cases other with
    | nil => rfl
    | cons letter other =>
        have unscaled := ends letter rfl
        simp only [unscaled.2.2.1, unscaled.2.2.2, or_self, if_false]
  cases input with
  | nil =>
      cases read
      exact ⟨[], rfl, fun other ends => ⟨ends.endsMantissa, plain rfl other ends⟩⟩
  | cons letter tail =>
      rw [readScale] at read
      split at read
      next scaled =>
        cases exponent : readExponent tail with
        | mk power behind =>
            rw [exponent] at read
            cases power with
            | none => cases read
            | some power =>
                cases read
                obtain ⟨written, rfl, again⟩ := readExponent_append exponent
                refine ⟨letter :: written, rfl, fun other ends => ⟨?_, ?_⟩⟩
                · intro character member
                  cases member
                  rcases scaled with rfl | rfl <;> decide
                · rw [List.cons_append, readScale, if_pos scaled, again other ends.endsDigits]
      next =>
        cases read
        exact ⟨[], rfl, fun other ends => ⟨ends.endsMantissa, plain rfl other ends⟩⟩

/-- The digits that a number may begin with: at least one, and no zero in front of another one. -/
structure LeadsNumber (digits : List Char) : Prop where
  numeric : ∀ digit ∈ digits, digit.isDigit = true
  given : digits.isEmpty = false
  canonical : ¬ (digits.head? = some '0' ∧ digits.length ≠ 1)

theorem readMagnitude_whole {leading : List Char} (leads : LeadsNumber leading) (negative : Bool)
    {behind : List Char} (ends : EndsMantissa behind) :
    readMagnitude negative (leading ++ behind) =
      readScale negative (digitsValue 0 leading) 0 true behind := by
  have ended : EndsDigits behind := fun character member => (ends character member).1
  simp only [readMagnitude, takeWhile_isDigit_append leads.numeric ended,
    dropWhile_isDigit_append leads.numeric ended, leads.given, leads.canonical, Bool.false_eq_true,
    if_false]
  split
  next rest => exact absurd rfl (ends '.' rfl).2
  next => rfl

theorem readMagnitude_fraction {leading fraction : List Char} (leads : LeadsNumber leading)
    (numeric : ∀ digit ∈ fraction, digit.isDigit = true) (negative : Bool) {behind : List Char}
    (ends : EndsDigits behind) :
    readMagnitude negative (leading ++ '.' :: (fraction ++ behind)) =
      if fraction.isEmpty then (brokenNumber behind, none)
      else readScale negative (digitsValue (digitsValue 0 leading) fraction) fraction.length false
        behind := by
  have ended : EndsDigits ('.' :: (fraction ++ behind)) := by
    intro character member
    cases member
    rfl
  simp only [readMagnitude, takeWhile_isDigit_append leads.numeric ended,
    dropWhile_isDigit_append leads.numeric ended, leads.given, leads.canonical, Bool.false_eq_true,
    if_false, takeWhile_isDigit_append numeric ends, dropWhile_isDigit_append numeric ends]

/-- Only digits that may begin a number are gone past. -/
theorem leadsNumber_of_readMagnitude {negative : Bool} {leading behind rest : List Char}
    {document : Document} (numeric : ∀ digit ∈ leading, digit.isDigit = true)
    (ends : EndsDigits behind)
    (read : readMagnitude negative (leading ++ behind) = (document, some rest)) :
    LeadsNumber leading := by
  simp only [readMagnitude, takeWhile_isDigit_append numeric ends,
    dropWhile_isDigit_append numeric ends] at read
  split at read
  next => cases read
  next given =>
    split at read
    next => cases read
    next canonical => exact ⟨numeric, by simpa using given, canonical⟩

/-- A number is read off its own characters, whatever follows that does not go on with it. -/
theorem readMagnitude_append {negative : Bool} {input rest : List Char} {document : Document}
    (read : readMagnitude negative input = (document, some rest)) :
    ∃ written, input = written ++ rest ∧ ∀ other, EndsNumber other →
      readMagnitude negative (written ++ other) = (document, some other) := by
  obtain ⟨leading, behind, rfl, numeric, ends⟩ := exists_digits input
  have leads := leadsNumber_of_readMagnitude numeric ends read
  by_cases pointed : ∃ tail, behind = '.' :: tail
  · obtain ⟨tail, rfl⟩ := pointed
    obtain ⟨fraction, tail, rfl, numeric, ends⟩ := exists_digits tail
    rw [readMagnitude_fraction leads numeric negative ends] at read
    split at read
    next => cases read
    next given =>
      obtain ⟨written, rfl, again⟩ := readScale_append read
      refine ⟨leading ++ '.' :: (fraction ++ written), by simp, fun other ends => ?_⟩
      obtain ⟨apart, same⟩ := again other ends
      have ended : EndsDigits (written ++ other) := fun character member =>
        (apart character member).1
      rw [List.append_assoc, List.cons_append, List.append_assoc,
        readMagnitude_fraction leads numeric negative ended, if_neg given, same]
  · have mantissa : EndsMantissa behind := by
      intro character member
      refine ⟨ends character member, ?_⟩
      rintro rfl
      exact pointed ⟨behind.tail, (List.cons_head?_tail member).symm⟩
    rw [readMagnitude_whole leads negative mantissa] at read
    obtain ⟨written, rfl, again⟩ := readScale_append read
    refine ⟨leading ++ written, (List.append_assoc _ _ _).symm, fun other ends => ?_⟩
    obtain ⟨apart, same⟩ := again other ends
    rw [List.append_assoc, readMagnitude_whole leads negative apart, same]

/-- A number begins with a digit behind its sign. -/
theorem exists_digit_of_readMagnitude {negative : Bool} {input rest : List Char}
    {document : Document} (read : readMagnitude negative input = (document, some rest)) :
    ∃ digit tail, input = digit :: tail ∧ digit.isDigit = true := by
  obtain ⟨leading, behind, rfl, numeric, ends⟩ := exists_digits input
  cases leading with
  | nil => exact absurd (leadsNumber_of_readMagnitude numeric ends read).given Bool.noConfusion
  | cons digit leading => exact ⟨digit, leading ++ behind, rfl, numeric digit List.mem_cons_self⟩

theorem exists_number_of_readScale {negative whole : Bool} {digits places : Nat}
    {input : List Char} {document : Document} {left : Option (List Char)}
    (read : readScale negative digits places whole input = (document, left))
    (faultless : document.skip = .ok ()) :
    ∃ numeral rest, document = .number numeral ∧ left = some rest := by
  rw [readScale.eq_def] at read
  split at read
  next letter tail =>
    split at read
    next =>
      split at read
      next =>
        cases read
        exact ⟨_, _, rfl, rfl⟩
      next =>
        cases read
        cases faultless
    next =>
      cases read
      exact ⟨_, _, rfl, rfl⟩
  next =>
    cases read
    exact ⟨_, _, rfl, rfl⟩

theorem exists_number_of_readMagnitude {negative : Bool} {input : List Char} {document : Document}
    {left : Option (List Char)} (read : readMagnitude negative input = (document, left))
    (faultless : document.skip = .ok ()) :
    ∃ numeral rest, document = .number numeral ∧ left = some rest := by
  rw [readMagnitude] at read
  split at read
  next =>
    cases read
    cases faultless
  next =>
    split at read
    next =>
      cases read
      cases faultless
    next =>
      split at read
      next =>
        dsimp only at read
        split at read
        next =>
          cases read
          cases faultless
        next => exact exists_number_of_readScale read faultless
      next => exact exists_number_of_readScale read faultless

/-- A number without a fault is a number of the grammar, behind its sign. -/
theorem exists_digits_of_readMagnitude {negative : Bool} {input : List Char} {document : Document}
    {left : Option (List Char)} (read : readMagnitude negative input = (document, left))
    (faultless : document.skip = .ok ()) :
    ∃ numeral digits rest, document = .number numeral ∧ left = some rest ∧ input = digits ++ rest
      ∧ readMagnitude negative digits = (.number numeral, some []) := by
  obtain ⟨numeral, rest, rfl, rfl⟩ := exists_number_of_readMagnitude read faultless
  obtain ⟨digits, rfl, again⟩ := readMagnitude_append read
  have alone := again [] (by intro character member; cases member)
  rw [List.append_nil] at alone
  exact ⟨numeral, digits, rest, rfl, rfl, rfl, alone⟩

/-! ## Texts and words -/

/-- A text is read off its own characters, whatever follows. -/
theorem scanText_append {input rest : List Char} {units : List TextUnit}
    (scanned : scanText input = (units, .ok rest)) :
    ∃ quoted, input = quoted ++ rest
      ∧ ∀ other, scanText (quoted ++ other) = (units, .ok other) := by
  fun_induction scanText input generalizing units with
  | case2 rest =>
      cases scanned
      exact ⟨['"'], rfl, fun _ => rfl⟩
  | case3 first second third fourth tail value code inner ending scan induction =>
      cases scanned
      obtain ⟨quoted, rfl, again⟩ := induction scan
      refine ⟨'\\' :: 'u' :: first :: second :: third :: fourth :: quoted, rfl, fun other => ?_⟩
      simp only [List.cons_append, scanText, code, again]
  | case6 letter tail _ other value escape inner ending scan induction =>
      cases scanned
      obtain ⟨quoted, rfl, again⟩ := induction scan
      refine ⟨'\\' :: letter :: quoted, rfl, fun behind => ?_⟩
      simp only [List.cons_append]
      rw [scanText]
      · simp only [escape, again]
      · exact fun _ _ _ _ _ same => absurd same other
      · exact other
  | case10 character tail mark _ _ escape ended printable inner ending scan induction =>
      cases scanned
      obtain ⟨quoted, rfl, again⟩ := induction scan
      have plain : character ≠ '\\' := by
        intro slash
        cases following : quoted ++ rest with
        | nil => exact ended slash following
        | cons letter tail => exact escape letter tail slash following
      refine ⟨character :: quoted, rfl, fun behind => ?_⟩
      rw [List.cons_append, scanText_printable mark plain printable, again]
  | _ => simp at scanned

theorem matchWord_eq_ok_iff {word input rest : List Char} :
    matchWord word input = .ok rest ↔ input = word ++ rest := by
  induction word generalizing input with
  | nil =>
      rw [matchWord, List.nil_append]
      exact ⟨fun same => Except.ok.inj same, fun same => congrArg Except.ok same⟩
  | cons expected word induction =>
      cases input with
      | nil => simp [matchWord]
      | cons character input =>
          rw [matchWord]
          split
          next same => rw [induction, List.cons_append, same, List.cons_inj_right]
          next other => simp [Ne.symm other]

end Document

end FlightGuard
