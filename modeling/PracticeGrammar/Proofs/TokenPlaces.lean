import Mathlib.Data.List.TakeWhile
import PracticeGrammar.Proofs.JsonScanning

/-! Where tokens lie in their text. What a token takes up and what it leaves make up the text, in
octets, so all tokens and flaws lie inside it. -/

namespace PracticeGrammar.Json
open Numeral

namespace Scanned

section Octets
variable {text : List Char}

theorem octets_append (front back : List Char) : octets (front ++ back) = octets front + octets back := by
  induction front with
  | nil => simp [octets]
  | cons char rest ih =>
    simp only [List.cons_append, octets, ih]
    omega

theorem octets_take_add_drop (count : Nat) (text : List Char) :
    octets (text.take count) + octets (text.drop count) = octets text := by
  rw [← octets_append, List.take_append_drop]

theorem length_le_octets (text : List Char) : text.length ≤ octets text := by
  induction text with
  | nil => exact Nat.le_refl _
  | cons char rest ih =>
    have something := char.utf8Size_pos
    simp only [List.length_cons, octets]
    omega

theorem octets_toList (text : String) : octets text.toList = text.utf8ByteSize := by
  have chars (chars : List Char) : octets chars = (String.ofList chars).utf8ByteSize := by
    induction chars with
    | nil => rfl
    | cons char rest ih =>
      rw [octets, String.ofList_cons, String.utf8ByteSize_append, String.utf8ByteSize_singleton, ih]
  rw [chars, String.ofList_toList]

/-- Characters of one octet each. -/
theorem octets_eq_length (single : ∀ char ∈ text, char.utf8Size = 1) : octets text = text.length := by
  induction text with
  | nil => rfl
  | cons char rest ih =>
    obtain ⟨first, others⟩ := List.forall_mem_cons.mp single
    rw [octets, first, ih others, List.length_cons, Nat.add_comm]

theorem octets_span {p : Char → Bool} (single : ∀ char, p char = true → char.utf8Size = 1)
    (text : List Char) :
    octets text = (text.takeWhile p).length + octets (text.dropWhile p) := by
  have front : octets (text.takeWhile p) = (text.takeWhile p).length :=
    octets_eq_length fun char member => single char (List.mem_takeWhile_imp member)
  rw [← front, ← octets_append, List.takeWhile_append_dropWhile]

theorem utf8Size_of_isDigit (char : Char) (digit : char.isDigit = true) : char.utf8Size = 1 := by
  simp only [Char.isDigit, Bool.and_eq_true, decide_eq_true_eq, UInt32.le_iff_toNat_le] at digit
  rw [Char.utf8Size_eq_one_iff, UInt32.le_iff_toNat_le]
  exact Nat.le_trans digit.2 (by decide)

theorem utf8Size_of_isBlank (char : Char) (blank : isBlank char = true) : char.utf8Size = 1 := by
  have listed := isBlank_iff.mp blank
  simp only [List.mem_cons, List.not_mem_nil, or_false] at listed
  rcases listed with rfl | rfl | rfl | rfl <;> rfl

end Octets

section Numerals

/-- The octets of a sign. -/
private def signWidth (sign : Option Sign) : Nat := if sign.isSome then 1 else 0

private def fractionWidth : Option (List Char) → Nat
  | none => 0
  | some digits => 1 + digits.length

private def exponentWidth : Option WrittenExponent → Nat
  | none => 0
  | some part => 1 + signWidth part.sign + part.digits.length

private theorem width_eq (numeral : Numeral) : numeral.width = signWidth numeral.sign +
    numeral.whole.length + fractionWidth numeral.fraction + exponentWidth numeral.exponent := by
  obtain ⟨sign, whole, fraction, exponent⟩ := numeral
  cases fraction <;> cases exponent <;> rfl

private theorem takeSign_octets (text : List Char) :
    octets text = signWidth (takeSign text).1 + octets (takeSign text).2 := by
  unfold takeSign
  split
  · exact congrArg (· + _) (rfl : '+'.utf8Size = 1)
  · exact congrArg (· + _) (rfl : '-'.utf8Size = 1)
  · simp [signWidth]

private theorem takeFraction_octets (text : List Char) :
    octets text = fractionWidth (takeFraction text).1 + octets (takeFraction text).2 := by
  unfold takeFraction
  split
  next rest =>
    have point : '.'.utf8Size = 1 := rfl
    have digits := octets_span utf8Size_of_isDigit rest
    simp only [octets, point, fractionWidth]
    omega
  · simp [fractionWidth]

private theorem takeExponent_octets (text : List Char) :
    octets text = exponentWidth (takeExponent text).1 + octets (takeExponent text).2 := by
  unfold takeExponent
  split
  · rfl
  next letter rest =>
    split
    next marked =>
      have single : letter.utf8Size = 1 := by rcases marked with rfl | rfl <;> rfl
      have sign := takeSign_octets rest
      have digits := octets_span utf8Size_of_isDigit (takeSign rest).2
      simp only [octets, single, exponentWidth]
      omega
    · simp [exponentWidth]

theorem take_octets (sign : Option Sign) (text : List Char) :
    (take sign text).1.width + octets (take sign text).2 = signWidth sign + octets text := by
  have whole := octets_span utf8Size_of_isDigit text
  have fraction := takeFraction_octets (text.dropWhile Char.isDigit)
  have exponent := takeExponent_octets (takeFraction (text.dropWhile Char.isDigit)).2
  rw [width_eq]
  simp only [take]
  omega

end Numerals

private theorem lowSurrogate_within {high : Nat} {text : List Char} {fault : EscapeFault}
    (failed : Escape.readLowSurrogate high text = .error fault) :
    fault.distance = 1 ∨ fault.distance = 7 ∧ 2 ≤ text.length := by
  unfold Escape.readLowSurrogate at failed
  split at failed
  · split at failed
    · cases failed
      exact .inl rfl
    · cases failed
      exact .inr ⟨rfl, by simp⟩
    · split at failed <;> cases failed
      exact .inl rfl
  · cases failed
    exact .inl rfl

/-- A fault in an escape lies inside the text. -/
private theorem escape_within {text : List Char} {fault : EscapeFault}
    (failed : Escape.read text = .error fault) : fault.distance ≤ text.length := by
  unfold Escape.read at failed
  split at failed
  · cases failed
    exact Nat.le_refl _
  next rest =>
    rw [List.length_cons]
    split at failed
    · cases failed
      exact Nat.le_add_left 1 _
    · split at failed
      · -- Four characters stand between the two units of a pair.
        rcases lowSurrogate_within failed with near | ⟨far, more⟩
        · omega
        · rw [List.length_drop] at more
          omega
      · split at failed <;> cases failed
        exact Nat.le_add_left 1 _
  all_goals cases failed

/-- What was read and what is left make up the text up to its end; a flaw lies before that end. -/
def EndsAt (finish : Nat) : Except Flaw (Scanned Token) → Prop
  | .ok scanned => scanned.stop + octets scanned.rest = finish
  | .error flaw => flaw.offset ≤ finish

section EndsAt
variable {start offset : Nat}

theorem string_endsAt (text found : List Char) (endsInQuote : Bool) (begun : start ≤ offset) :
    EndsAt (offset + octets text) (string start text offset found endsInQuote) := by
  fun_induction string start text offset found endsInQuote with
  | case1 => rfl
  | case2 offset => exact Nat.le_trans begun (Nat.le_add_right _ _)
  | case3 offset found _ rest =>
    have quote : '"'.utf8Size = 1 := rfl
    simp only [EndsAt, octets, quote]
    omega
  | case4 offset found _ rest fault failed _ =>
    have inside := Nat.le_trans (escape_within failed) (length_le_octets rest)
    have slash : '\\'.utf8Size = 1 := rfl
    simp only [EndsAt, octets, slash]
    omega
  | case5 offset found _ rest escape _ _ ih =>
    have split := octets_take_add_drop escape.length rest
    have slash : '\\'.utf8Size = 1 := rfl
    have ends := ih (by omega)
    rw [Nat.add_assoc, split] at ends
    rw [octets, slash, ← Nat.add_assoc]
    exact ends
  | case6 offset found _ char rest _ _ ih =>
    have ends := ih (by omega)
    rw [octets, ← Nat.add_assoc]
    exact ends

private theorem keyword_endsAt (first : Char) {tail : String} (single : octets tail.toList = tail.length)
    (scalar : Scalar) (rest : List Char) :
    EndsAt (start + (1 + octets rest)) (keyword first tail scalar start rest) := by
  unfold keyword
  split
  next present =>
    obtain ⟨behind, rfl⟩ := List.isPrefixOf_iff_prefix.mp present
    have dropped : (tail.toList ++ behind).drop tail.length = behind :=
      List.drop_left' String.length_toList
    simp only [EndsAt, dropped, octets_append, single]
    omega
  · exact Nat.le_add_right _ _

private theorem number_endsAt (sign : Option Sign) (text : List Char) :
    EndsAt (start + (signWidth sign + octets text)) (number sign text start) := by
  unfold number
  split
  next numeral rest same =>
    have taken : numeral.width + octets rest = signWidth sign + octets text := by
      simpa only [same] using take_octets sign text
    split
    · exact Nat.le_add_right _ _
    · simp only [EndsAt]
      omega

theorem token_endsAt (start : Nat) (first : Char) (rest : List Char) :
    EndsAt (start + octets (first :: rest)) (token start first rest) := by
  have mark (char : Char) (single : char.utf8Size = 1) (value : Token) :
      EndsAt (start + octets (char :: rest)) (.ok ⟨value, rest, start + 1⟩) := by
    simp only [EndsAt, octets, single]
    omega
  unfold token
  split
  case h_7 =>
    have ends := string_endsAt rest [] true (Nat.le_add_right start 1)
    rw [Nat.add_assoc] at ends
    exact ends
  case h_8 => exact keyword_endsAt 't' rfl _ rest
  case h_9 => exact keyword_endsAt 'f' rfl _ rest
  case h_10 => exact keyword_endsAt 'n' rfl _ rest
  case h_11 => exact number_endsAt (some .minus) rest
  case h_12 =>
    split
    · have ends := @number_endsAt start none (first :: rest)
      rw [signWidth, Option.isSome_none, if_neg Bool.false_ne_true, Nat.zero_add] at ends
      exact ends
    · exact Nat.le_add_right _ _
  all_goals exact mark _ rfl _

end EndsAt

end Scanned

/-- The end of the text, or the place of the flaw before it. -/
def Ending.offset : Ending → Nat
  | .finished offset => offset
  | .broken flaw => flaw.offset

namespace Lexemes
open Scanned

/-- No lexeme begins, and no flaw lies, behind the end of the text. -/
theorem scanFrom_endsAt (text : List Char) (offset : Nat) (found : List Lexeme)
    (before : ∀ item ∈ found, item.start ≤ offset + octets text) :
    (∀ item ∈ (scanFrom text offset found).items, item.start ≤ offset + octets text) ∧
      (scanFrom text offset found).ending.offset ≤ offset + octets text := by
  fun_induction scanFrom text offset found with
  | case1 text offset found start blank =>
    refine ⟨fun item member => before item (List.mem_reverse.mp member), ?_⟩
    have blanks := octets_span utf8Size_of_isBlank text
    simp only [Ending.offset]
    omega
  | case2 text offset found start first rest body flaw broken =>
    refine ⟨fun item member => before item (List.mem_reverse.mp member), ?_⟩
    have blanks := octets_span utf8Size_of_isBlank text
    have ends := token_endsAt start first rest
    rw [broken] at ends
    simp only [EndsAt, body, Ending.offset] at blanks ends ⊢
    omega
  | case3 text offset found start first rest body scanned read _ ih =>
    have blanks := octets_span utf8Size_of_isBlank text
    have ends := token_endsAt start first rest
    rw [read] at ends
    simp only [EndsAt, body] at blanks ends
    have finish : scanned.stop + octets scanned.rest = offset + octets text := by omega
    rw [finish] at ih
    apply ih
    rw [List.forall_mem_cons]
    exact ⟨by dsimp only; omega, before⟩

theorem ofText_endsAt (text : List Char) :
    (∀ item ∈ (ofText text).items, item.start ≤ octets text) ∧
      (ofText text).ending.offset ≤ octets text := by
  have ends := scanFrom_endsAt text 0 [] (by simp)
  rw [Nat.zero_add] at ends
  exact ends

end Lexemes
end PracticeGrammar.Json
