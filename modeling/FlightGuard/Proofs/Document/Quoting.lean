import FlightGuard.Document.Reader
import FlightGuard.Document.Writer
import Mathlib.Tactic.Common

/-!
# Quoted texts

Any text can be put in quotes, and the reader takes the same text out of them.  A character that
has a short escape comes back as itself, another control character as the number of its escape.
-/

namespace FlightGuard

namespace Document

open Content

/-! ## Escapes -/

/-- How the reader takes in a character as it is written. -/
def unit (character : Char) : TextUnit :=
  if (shortLetter? character).isNone ∧ character.toNat < 32 then .code character.toNat
  else .character character

/-- The letter of a short escape stands for its character, and is none of the numbered escapes. -/
theorem shortEscape?_of_shortLetter? {character letter : Char}
    (short : shortLetter? character = some letter) :
    shortEscape? letter = some character ∧ letter ≠ 'u' := by
  rw [shortLetter?] at short
  split at short
  next special =>
    cases short
    rcases special with rfl | rfl <;> decide
  repeat'
    split at short
    next same =>
      cases short
      subst same
      decide
  cases short

theorem hexDigit?_hexDigit : ∀ value < 16, hexDigit? (hexDigit value) = some value := by
  decide

theorem hexCode?_hexDigit {code : Nat} (small : code < 256) :
    hexCode? '0' '0' (hexDigit (code / 16)) (hexDigit (code % 16)) = some code := by
  have zero : hexDigit? '0' = some 0 := by decide
  have high := hexDigit?_hexDigit (code / 16) (by omega)
  have low := hexDigit?_hexDigit (code % 16) (by omega)
  simp only [hexCode?, zero, high, low]
  change some _ = some _
  congr 1
  omega

theorem scanText_shortEscape {letter character : Char}
    (escape : shortEscape? letter = some character) (other : letter ≠ 'u') (rest : List Char) :
    scanText ('\\' :: letter :: rest) =
      (.character character :: (scanText rest).1, (scanText rest).2) := by
  rw [scanText]
  · rw [escape]
  · exact fun _ _ _ _ _ same => absurd same other
  · exact other

theorem scanText_printable {character : Char} (mark : character ≠ '"') (slash : character ≠ '\\')
    (printable : ¬ character.toNat < 32) (rest : List Char) :
    scanText (character :: rest) =
      (.character character :: (scanText rest).1, (scanText rest).2) := by
  rw [scanText.eq_def]
  split
  case h_7 same =>
    cases same
    exact if_neg printable
  all_goals simp_all

/-! ## Texts in quotes -/

theorem scanText_escaped (character : Char) (rest : List Char) :
    scanText (escaped character ++ rest) =
      (unit character :: (scanText rest).1, (scanText rest).2) := by
  rw [escaped, unit]
  cases short : shortLetter? character with
  | some letter =>
      obtain ⟨escape, other⟩ := shortEscape?_of_shortLetter? short
      exact scanText_shortEscape escape other rest
  | none =>
      by_cases control : character.toNat < 32
      · simp only [control, if_true, Option.isNone_none, true_and, List.cons_append,
          List.nil_append]
        rw [scanText, hexCode?_hexDigit (Nat.lt_trans control (by decide))]
      · simp only [control, if_false, and_false, List.singleton_append]
        have plain : character ≠ '"' ∧ character ≠ '\\' := by
          constructor <;> rintro rfl <;> cases short
        exact scanText_printable plain.1 plain.2 control rest

theorem scanText_flatMap (characters rest : List Char) :
    scanText (characters.flatMap escaped ++ '"' :: rest) =
      (characters.map unit, .ok rest) := by
  induction characters with
  | nil => rfl
  | cons character characters induction =>
      rw [List.flatMap_cons, List.append_assoc, scanText_escaped, induction]
      rfl

theorem joinUnits_code (ending : Option Fault) {code : Nat} (small : code < 32)
    (units : List TextUnit) :
    joinUnits ending (.code code :: units) =
      (joinUnits ending units).map (Char.ofNat code :: ·) := by
  have low : isLowSurrogate code = false := by
    simp [isLowSurrogate]
    omega
  have high : isHighSurrogate code = false := by
    simp [isHighSurrogate]
    omega
  rw [joinUnits.eq_def]
  split <;> simp_all

theorem joinUnits_unit (characters : List Char) :
    joinUnits none (characters.map unit) = .ok characters := by
  induction characters with
  | nil => rfl
  | cons character characters induction =>
      rw [List.map_cons, unit]
      split
      next control =>
        rw [joinUnits_code none control.2, induction, Char.ofNat_toNat]
        rfl
      next =>
        rw [joinUnits, induction]
        rfl

end Document

end FlightGuard
