import PracticeGrammar.Json.Scanned
import PracticeGrammar.Proofs.BinaryRounding
import PracticeGrammar.Proofs.JsonGrammar

/-! Numbers in JSON texts. Scanning takes a numeral as it is written, up to the first character that
cannot belong to it, and what it makes of the numeral is the number nearest to its exact value. -/

namespace PracticeGrammar

namespace Numeral

theorem digitsValue_eq (digits : List Char) : digitsValue digits = natural digits := by
  induction digits using List.reverseRecOn with
  | nil => rfl
  | append_singleton digits digit ih =>
    rw [digitsValue, List.foldl_append, ← digitsValue, ih]
    simp only [natural, List.foldl_cons, List.foldl_nil, List.reverse_append, List.reverse_cons,
      List.reverse_nil, List.nil_append, List.singleton_append, List.map_cons, Nat.ofDigits_cons]
    exact Nat.add_comm _ _

theorem natural_append (front back : List Char) :
    natural (front ++ back) = natural front * 10 ^ back.length + natural back := by
  rw [natural, List.reverse_append, List.map_append, Nat.ofDigits_append, List.length_map,
    List.length_reverse, ← natural, ← natural]
  ring

theorem fractionValue_eq (fraction : Option (List Char)) :
    fractionValue fraction = natural (fraction.getD []) / 10 ^ (fraction.getD []).length := by
  cases fraction with
  | none => simp [fractionValue, natural]
  | some digits => rfl

theorem exponentScale_eq (exponent : Option WrittenExponent) :
    exponentScale exponent = 10 ^ exponentValue exponent := by
  cases exponent with
  | none => rfl
  | some part =>
    obtain ⟨sign, digits⟩ := part
    have scale : (10 : ℚ) ^ (digitsValue digits : ℤ) = 10 ^ natural digits := by
      rw [zpow_natCast, digitsValue_eq]
    rcases sign with _ | _ | _
    · exact scale.symm
    · exact scale.symm
    · rw [exponentScale, exponentValue, if_pos rfl, zpow_neg, scale, one_div]

theorem signed_eq (numeral : Numeral) (absolute : ℚ) :
    signed numeral.sign absolute = if numeral.isNegative then -absolute else absolute := by
  unfold isNegative
  rcases numeral.sign with _ | _ | _ <;> rfl

theorem exactValue_eq (numeral : Numeral) :
    numeral.exactValue =
      let absolute := Binary64.decimalValue (digitsValue numeral.mantissaDigits)
        (exponentValue numeral.exponent - (numeral.fractionDigits.length : ℤ))
      if numeral.isNegative then -absolute else absolute := by
  have absolute : (natural numeral.whole + fractionValue numeral.fraction) *
        exponentScale numeral.exponent =
      Binary64.decimalValue (digitsValue numeral.mantissaDigits)
        (exponentValue numeral.exponent - (numeral.fractionDigits.length : ℤ)) := by
    rw [mantissaDigits, digitsValue_eq, natural_append, Binary64.decimalValue, fractionValue_eq,
      exponentScale_eq, zpow_sub₀ (by norm_num), zpow_natCast, ← fractionDigits]
    push_cast
    field_simp
  rw [exactValue, signed_eq, absolute]

theorem toBinary64_nearest (numeral : Numeral) :
    Binary64.IsNearest numeral.exactValue numeral.toBinary64 := by
  rw [exactValue_eq]
  exact Binary64.ofDecimal_nearest _ _ _

theorem exactValue_of_integral {numeral : Numeral} (noFraction : numeral.fraction = none)
    (noExponent : numeral.exponent = none) :
    numeral.exactValue =
      if numeral.isNegative then -(digitsValue numeral.whole : ℚ) else digitsValue numeral.whole := by
  have absolute : (natural numeral.whole + fractionValue numeral.fraction) *
      exponentScale numeral.exponent = digitsValue numeral.whole := by
    rw [noFraction, noExponent, fractionValue, exponentScale, add_zero, mul_one, digitsValue_eq]
  rw [exactValue, signed_eq, absolute]

theorem isIntegral_iff {numeral : Numeral} :
    numeral.isIntegral = true ↔ numeral.fraction = none ∧ numeral.exponent = none := by
  simp [isIntegral]

/-- The text goes on with nothing that a numeral could take. -/
def EndsBefore (tail : List Char) : Prop :=
  ∀ char ∈ tail.head?, char.isDigit = false ∧ char ≠ '.' ∧ char ≠ 'e' ∧ char ≠ 'E'

private theorem digits_split {digits tail : List Char} (all : ∀ char ∈ digits, char.isDigit = true)
    (ends : ∀ char ∈ tail.head?, char.isDigit = false) :
    (digits ++ tail).takeWhile Char.isDigit = digits ∧
      (digits ++ tail).dropWhile Char.isDigit = tail := by
  rw [List.takeWhile_append_of_pos all, List.dropWhile_append_of_pos all]
  cases tail with
  | nil => simp
  | cons char rest =>
    have stop := ends char rfl
    simp [stop]

theorem takeSign_signText {sign : Option Sign} {text : List Char}
    (unsigned : ∀ char ∈ text.head?, char ≠ '+' ∧ char ≠ '-') :
    takeSign (signText sign ++ text) = (sign, text) := by
  cases sign with
  | some sign => cases sign <;> rfl
  | none =>
    cases text with
    | nil => rfl
    | cons char rest =>
      obtain ⟨noPlus, noMinus⟩ := unsigned char rfl
      simp [signText, takeSign, noPlus, noMinus]

private theorem digit_ne {char : Char} (digit : char.isDigit = true) :
    char ≠ '+' ∧ char ≠ '-' ∧ char ≠ '.' ∧ char ≠ 'e' ∧ char ≠ 'E' := by
  refine ⟨?_, ?_, ?_, ?_, ?_⟩ <;> (rintro rfl; revert digit; decide)

variable {letter : Char} {tail : List Char}

private theorem takeExponent_exponentText {exponent : Option WrittenExponent}
    (exponential : letter = 'e' ∨ letter = 'E')
    (standard : ∀ part ∈ exponent, part.digits ≠ [] ∧ ∀ char ∈ part.digits, char.isDigit = true)
    (ends : EndsBefore tail) : takeExponent (exponentText letter exponent ++ tail) = (exponent, tail) := by
  cases exponent with
  | none =>
    cases tail with
    | nil => rfl
    | cons char rest =>
      obtain ⟨_, _, lower, upper⟩ := ends char rfl
      simp [exponentText, takeExponent, lower, upper]
  | some part =>
    obtain ⟨sign, digits⟩ := part
    obtain ⟨nonempty, all⟩ := standard _ rfl
    have unsigned : ∀ char ∈ (digits ++ tail).head?, char ≠ '+' ∧ char ≠ '-' := by
      intro char first
      cases digits with
      | nil => exact absurd rfl nonempty
      | cons _ _ =>
        cases first
        obtain ⟨noPlus, noMinus, _⟩ := digit_ne (all char List.mem_cons_self)
        exact ⟨noPlus, noMinus⟩
    obtain ⟨taken, left⟩ := digits_split all fun char first => (ends char first).1
    simp only [exponentText, List.cons_append, List.append_assoc, takeExponent, exponential, if_true,
      takeSign_signText unsigned, taken, left]

private theorem takeFraction_fractionText {fraction : Option (List Char)}
    (standard : ∀ digits ∈ fraction, digits ≠ [] ∧ ∀ char ∈ digits, char.isDigit = true)
    (ends : ∀ char ∈ tail.head?, char.isDigit = false ∧ char ≠ '.') :
    takeFraction (fractionText fraction ++ tail) = (fraction, tail) := by
  cases fraction with
  | none =>
    cases tail with
    | nil => rfl
    | cons char rest =>
      have noPoint := (ends char rfl).2
      simp [fractionText, takeFraction, noPoint]
  | some digits =>
    obtain ⟨_, all⟩ := standard _ rfl
    obtain ⟨taken, left⟩ := digits_split all fun char first => (ends char first).1
    simp only [fractionText, List.cons_append, takeFraction, taken, left]

theorem take_text {numeral : Numeral} (standard : numeral.IsStandard)
    (exponential : letter = 'e' ∨ letter = 'E') (ends : EndsBefore tail) :
    take numeral.sign (numeral.whole ++ (fractionText numeral.fraction ++
      (exponentText letter numeral.exponent ++ tail))) = (numeral, tail) := by
  have exponentHead : ∀ char ∈ (exponentText letter numeral.exponent ++ tail).head?,
      char.isDigit = false ∧ char ≠ '.' := by
    intro char first
    cases written : numeral.exponent with
    | none =>
      rw [written] at first
      obtain ⟨noDigit, noPoint, _⟩ := ends char first
      exact ⟨noDigit, noPoint⟩
    | some part =>
      rw [written] at first
      cases first
      rcases exponential with rfl | rfl <;> decide
  have fractionHead : ∀ char ∈ (fractionText numeral.fraction ++
      (exponentText letter numeral.exponent ++ tail)).head?, char.isDigit = false := by
    intro char first
    cases written : numeral.fraction with
    | none =>
      rw [written] at first
      exact (exponentHead char first).1
    | some digits =>
      rw [written] at first
      cases first
      decide
  obtain ⟨taken, left⟩ := digits_split standard.wholeDigits fractionHead
  simp only [take, taken, left, takeFraction_fractionText standard.fraction exponentHead,
    takeExponent_exponentText exponential standard.exponent ends]

theorem whole_ne_nil {numeral : Numeral} (standard : numeral.IsStandard) : numeral.whole ≠ [] := by
  rcases standard.whole with zero | ⟨nonempty, _⟩
  · simp [zero]
  · exact nonempty

theorem isDecimal_of_standard {numeral : Numeral} (standard : numeral.IsStandard) :
    numeral.isDecimal = true := by
  have nonempty := whole_ne_nil standard
  have exponent : numeral.exponent.all (fun part => !part.digits.isEmpty) = true := by
    cases written : numeral.exponent with
    | none => rfl
    | some part =>
      have digits := (standard.exponent part written).1
      simp [digits]
  simp [isDecimal, mantissaDigits, nonempty, exponent]

end Numeral

namespace Json
open Numeral

def Number.ofNumeral (numeral : Numeral) : Number :=
  if numeral.isIntegral then
    if numeral.isNegative then .signed (-digitsValue numeral.whole)
    else .unsigned (digitsValue numeral.whole)
  else .float numeral.toBinary64

theorem Scanned.numberOf_eq {numeral : Numeral} (standard : numeral.IsStandard)
    (inRange : numeral.InRange) : Scanned.numberOf numeral = .ok (.ofNumeral numeral) := by
  unfold Scanned.numberOf Number.ofNumeral
  by_cases integral : numeral.isIntegral = true
  · have nonempty := whole_ne_nil standard
    obtain ⟨noFraction, noExponent⟩ := isIntegral_iff.mp integral
    obtain ⟨low, high⟩ := inRange noFraction noExponent
    rw [exactValue_of_integral noFraction noExponent] at low high
    by_cases negative : numeral.isNegative = true
    · rw [if_pos negative, neg_le_neg_iff] at low
      have bound : digitsValue numeral.whole ≤ 2 ^ 127 := by exact_mod_cast low
      norm_num at bound
      simp [integral, nonempty, negative, bound]
    · rw [if_neg negative] at high
      have bound : digitsValue numeral.whole < 2 ^ 128 := by exact_mod_cast high
      norm_num at bound
      simp [integral, nonempty, negative, bound]
  · simp [integral, isDecimal_of_standard standard]

/-- The integers that do not fit into 128 bits are refused, with the nearest number. -/
theorem Scanned.numberOf_wide {numeral : Numeral} (standard : numeral.IsStandard)
    (wide : ¬numeral.InRange) : Scanned.numberOf numeral = .error numeral.toBinary64 := by
  unfold InRange at wide
  push Not at wide
  obtain ⟨noFraction, noExponent, outside⟩ := wide
  have nonempty := whole_ne_nil standard
  have integral := isIntegral_iff.mpr ⟨noFraction, noExponent⟩
  unfold Scanned.numberOf
  rw [exactValue_of_integral noFraction noExponent] at outside
  by_cases negative : numeral.isNegative = true
  · rw [if_pos negative] at outside
    have large : 2 ^ 127 < digitsValue numeral.whole := by
      by_contra small
      have bound : (digitsValue numeral.whole : ℚ) ≤ 2 ^ 127 := by exact_mod_cast not_lt.mp small
      have high := outside (neg_le_neg bound)
      have low : -(digitsValue numeral.whole : ℚ) ≤ 0 := by simp
      linarith
    norm_num at large
    simp [integral, nonempty, negative, large]
  · rw [if_neg negative] at outside
    have low : (-2 ^ 127 : ℚ) ≤ digitsValue numeral.whole := by
      have positive : (0 : ℚ) ≤ digitsValue numeral.whole := by positivity
      linarith
    have large : 2 ^ 128 ≤ digitsValue numeral.whole := by exact_mod_cast outside low
    norm_num at large
    simp [integral, nonempty, negative, large]

/-- A numeral is read as the number nearest to what it denotes. -/
theorem Number.ofNumeral_nearest (numeral : Numeral) :
    Binary64.IsNearest numeral.exactValue (Number.ofNumeral numeral).toBinary64 := by
  unfold Number.ofNumeral
  split_ifs with integral negative
  · obtain ⟨noFraction, noExponent⟩ := isIntegral_iff.mp integral
    rw [exactValue_of_integral noFraction noExponent, if_pos negative]
    have nearest := Binary64.ofInt_nearest (-digitsValue numeral.whole)
    push_cast at nearest
    exact nearest
  · obtain ⟨noFraction, noExponent⟩ := isIntegral_iff.mp integral
    rw [exactValue_of_integral noFraction noExponent, if_neg negative]
    have nearest := Binary64.ofInt_nearest (digitsValue numeral.whole)
    push_cast at nearest
    exact nearest
  · exact numeral.toBinary64_nearest

end Json
end PracticeGrammar
