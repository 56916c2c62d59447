import PracticeGrammar.Json.Lexemes
import PracticeGrammar.Proofs.JsonNumerals
import PracticeGrammar.Proofs.LenientFormat

/-! Which spellings of a number stand for a NaN. What is written in digits never does, even if it
is out of range: it is rounded to the nearest number, at most to an infinity. A string, though, can
spell out the name of a NaN. -/

namespace PracticeGrammar

/-- The name of a NaN, in any mix of cases, with or without a sign. -/
def SpellsNaN (text : String) : Prop :=
  ∃ sign name, text.toList = Numeral.signText sign ++ name ∧ name.map Char.toLower = "nan".toList

theorem spellsNaN_iff {text : String} :
    SpellsNaN text ↔ (Numeral.takeSign text.toList).2.map Char.toLower = "nan".toList := by
  constructor
  · rintro ⟨sign, name, same, spelled⟩
    have unsigned : ∀ char ∈ name.head?, char ≠ '+' ∧ char ≠ '-' := by
      intro char first
      cases name with
      | nil => cases first
      | cons letter rest =>
        cases first
        constructor <;> (rintro rfl; simp at spelled)
    rw [same, Numeral.takeSign_signText unsigned]
    exact spelled
  · intro spelled
    unfold Numeral.takeSign at spelled
    split at spelled
    next rest same => exact ⟨some .plus, rest, same, spelled⟩
    next rest same => exact ⟨some .minus, rest, same, spelled⟩
    next => exact ⟨none, text.toList, rfl, spelled⟩

instance (text : String) : Decidable (SpellsNaN text) := decidable_of_iff _ spellsNaN_iff.symm

theorem Numeral.isNaN_toBinary64 (numeral : Numeral) : numeral.toBinary64.isNaN = false :=
  (Binary64.ofDecimal_nearest _ _ _).1

theorem Binary64.isNaN_ofText? {text : String} {number : Binary64}
    (spelled : ofText? text.toList = some number) : number.isNaN = true ↔ SpellsNaN text := by
  have infinite (negative : Bool) : (infinity negative).isNaN = false := isNaN_ofMagnitude (Nat.le_refl _)
  have unknown : nan.isNaN = true := by decide
  rw [spellsNaN_iff]
  unfold ofText? at spelled
  dsimp only at spelled
  split at spelled
  next named =>
    cases spelled
    rw [infinite]
    rcases named with named | named <;> simp [named]
  next =>
    split at spelled
    next named =>
      cases spelled
      simp [unknown, named]
    next unnamed =>
      split at spelled
      next numeral taken =>
        split at spelled <;> cases spelled
        simp only [numeral.isNaN_toBinary64, unnamed, Bool.false_eq_true]
      next => cases spelled

namespace Json

/-- A number in a text is not a NaN. -/
def Token.Numeric (token : Token) : Prop :=
  ∀ number, token = .scalar (.number number) → number.toBinary64.isNaN = false

namespace Scanned

theorem numberOf_numeric {numeral : Numeral} {number : Number} (found : numberOf numeral = .ok number) :
    number.toBinary64.isNaN = false := by
  unfold numberOf at found
  dsimp only at found
  repeat' split at found
  all_goals cases found
  · exact (Binary64.ofInt_nearest _).1
  · exact (Binary64.ofInt_nearest _).1
  · exact numeral.isNaN_toBinary64

theorem string_numeric {start offset : Nat} {text found : List Char} {endsInQuote : Bool}
    {scanned : Scanned Token} (read : string start text offset found endsInQuote = .ok scanned) :
    scanned.value.Numeric := by
  fun_induction string start text offset found endsInQuote with
  | case1 | case3 =>
    cases read
    intro _ same
    cases same
  | case2 | case4 => cases read
  | case5 | case6 =>
    rename_i ih
    exact ih read

theorem number_numeric {sign : Option Sign} {text : List Char} {start : Nat} {scanned : Scanned Token}
    (read : number sign text start = .ok scanned) : scanned.value.Numeric := by
  unfold number at read
  dsimp only at read
  split at read
  next => cases read
  next value found =>
    cases read
    intro number same
    cases same
    exact numberOf_numeric found

theorem token_numeric {start : Nat} {first : Char} {rest : List Char} {scanned : Scanned Token}
    (read : token start first rest = .ok scanned) : scanned.value.Numeric := by
  unfold token at read
  split at read
  case h_7 => exact string_numeric read
  case h_8 | h_9 | h_10 =>
    unfold keyword at read
    split at read <;> cases read
    intro _ same
    cases same
  case h_11 => exact number_numeric read
  case h_12 =>
    split at read
    · exact number_numeric read
    · cases read
  all_goals
    cases read
    intro _ same
    cases same

end Scanned

namespace Lexemes
open Scanned

theorem scanFrom_numeric (text : List Char) (offset : Nat) (found : List Lexeme)
    (before : ∀ item ∈ found, item.token.Numeric) :
    ∀ item ∈ (scanFrom text offset found).items, item.token.Numeric := by
  fun_induction scanFrom text offset found with
  | case1 | case2 => exact fun item member => before item (List.mem_reverse.mp member)
  | case3 text offset found start first rest body scanned read _ ih =>
    apply ih
    rw [List.forall_mem_cons]
    exact ⟨token_numeric read, before⟩

theorem ofText_numeric (text : List Char) : ∀ item ∈ (ofText text).items, item.token.Numeric :=
  scanFrom_numeric text 0 [] (by simp)

end Lexemes
end Json

namespace Compiled
open Json

/-- Of all that is read as a number, only a string that spells its name is a NaN. -/
theorem LenientNumber.isNaN_iff {scalar : Scalar} {number : Binary64}
    (read : LenientNumber scalar number) (numeric : (Token.scalar scalar).Numeric) :
    number.isNaN = true ↔ ∃ spelling, scalar = .string spelling ∧ SpellsNaN spelling := by
  cases read with
  | null => simp [show Binary64.zero.isNaN = false by decide]
  | number value => simp [numeric value rfl]
  | string spelled => simp [Binary64.isNaN_ofText? spelled]

end Compiled
end PracticeGrammar
