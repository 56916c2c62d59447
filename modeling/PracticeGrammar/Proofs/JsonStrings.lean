import PracticeGrammar.Json.Scanned
import PracticeGrammar.Proofs.JsonGrammar

/-! Strings in JSON texts. However a character is written, scanning goes on behind what is written
with that one character added, so a string is read as what it is written for. A surrogate that is
not one of a pair is where scanning ends. -/

namespace PracticeGrammar.Json

private def hexTable : List (Char × Nat) :=
  "0123456789abcdef".toList.zipIdx ++ "0123456789ABCDEF".toList.zipIdx

private theorem hexDigit_of_table {value : Nat} {digit : Char} (hex : HexDigit value digit) :
    Escape.hexValue? digit = some value ∧ digit.utf8Size = 1 ∧ digit ≠ '+' := by
  have table : ∀ entry ∈ hexTable,
      Escape.hexValue? entry.1 = some entry.2 ∧ entry.1.utf8Size = 1 ∧ entry.1 ≠ '+' := by decide
  have listed : (digit, value) ∈ hexTable := by
    refine List.mem_append.mpr (hex.imp ?_ ?_)
    · exact List.mk_mem_zipIdx_iff_getElem?.mpr
    · exact List.mk_mem_zipIdx_iff_getElem?.mpr
  exact table _ listed

namespace CodeUnit
variable {unit : Nat} {digits : List Char}

theorem length (written : CodeUnit unit digits) : digits.length = 4 := by
  cases written
  rfl

theorem read (written : CodeUnit unit digits) (tail : List Char) :
    Escape.readCodeUnit (digits ++ tail) = .ok unit := by
  cases written with
  | @digits first second third fourth high upper lower low =>
    obtain ⟨firstValue, firstSize, noPlus⟩ := hexDigit_of_table high
    obtain ⟨secondValue, secondSize, _⟩ := hexDigit_of_table upper
    obtain ⟨thirdValue, thirdSize, _⟩ := hexDigit_of_table lower
    obtain ⟨fourthValue, fourthSize, _⟩ := hexDigit_of_table low
    have taken : Escape.takeOctets 4 ([first, second, third, fourth] ++ tail) =
        .ok [first, second, third, fourth] := by
      simp [Escape.takeOctets, firstSize, secondSize, thirdSize, fourthSize]
    have number : Escape.codeUnit? [first, second, third, fourth] = some unit := by
      have unsigned : Escape.codeUnit? [first, second, third, fourth] =
          Escape.hexNumber? [first, second, third, fourth] := by
        unfold Escape.codeUnit?
        split
        next same =>
          cases same
          exact absurd rfl noPlus
        · rfl
      simp [unsigned, Escape.hexNumber?, firstValue, secondValue, thirdValue, fourthValue]
      omega
    simp only [Escape.readCodeUnit, taken, number]

theorem unique {other : Nat} (written : CodeUnit unit digits) (same : CodeUnit other digits) :
    unit = other := by
  have read := written.read []
  rw [same.read [], Except.ok.injEq] at read
  exact read.symm

theorem lt (written : CodeUnit unit digits) : unit < 0x10000 := by
  cases written with
  | digits high _ _ _ =>
    have listed : unit / 0x1000 < 16 := by
      rcases high with high | high
      · exact (List.getElem?_eq_some_iff.mp high).1
      · exact (List.getElem?_eq_some_iff.mp high).1
    omega

end CodeUnit

private theorem char_range (char : Char) :
    char.toNat < 0xD800 ∨ 0xDFFF < char.toNat ∧ char.toNat < 0x110000 := char.valid

private theorem no_surrogate (char : Char) :
    Escape.isHighSurrogate char.toNat = false ∧ Escape.isLowSurrogate char.toNat = false := by
  have range := char_range char
  simp only [Escape.isHighSurrogate, Escape.isLowSurrogate, decide_eq_false_iff_not]
  omega

/-- An escape in the grammar is read as its character, all of it and no more. -/
private theorem read_escape {char : Char} {piece : List Char} (tail : List Char)
    (written : WrittenChar char ('\\' :: piece)) :
    Escape.read (piece ++ tail) = .ok ⟨char, piece.length⟩ := by
  cases written with
  | raw _ _ noBackslash => exact absurd rfl noBackslash
  | @short letter listed =>
    have table : ∀ entry ∈ shortEscapes, ∀ tail : List Char,
        Escape.read (entry.1 :: tail) = .ok ⟨entry.2, 1⟩ := by
      simp [shortEscapes, Escape.read]
    exact table _ listed tail
  | @unit digits spelled =>
    obtain ⟨noHigh, noLow⟩ := no_surrogate char
    simp [Escape.read, spelled.read, spelled.length, noHigh, noLow]
  | @pair high low beyond first second =>
    have range := char_range char
    have isHigh : Escape.isHighSurrogate (0xD800 + (char.toNat - 0x10000) / 0x400) = true := by
      simp only [Escape.isHighSurrogate, decide_eq_true_eq]
      omega
    have isLow : Escape.isLowSurrogate (0xDC00 + (char.toNat - 0x10000) % 0x400) = true := by
      simp only [Escape.isLowSurrogate, decide_eq_true_eq]
      omega
    have joined : Escape.joinSurrogates (0xD800 + (char.toNat - 0x10000) / 0x400)
        (0xDC00 + (char.toNat - 0x10000) % 0x400) = char.toNat := by
      unfold Escape.joinSurrogates
      omega
    have dropped : (high ++ '\\' :: 'u' :: (low ++ tail)).drop 4 = '\\' :: 'u' :: (low ++ tail) :=
      List.drop_left' first.length
    simp [Escape.read, first.read, isHigh, dropped, Escape.readLowSurrogate, second.read, isLow,
      joined, first.length, second.length]

section Scanning
variable {start offset : Nat} {found tail : List Char} {endsInQuote : Bool}

theorem string_writtenChar {char : Char} {piece : List Char} (written : WrittenChar char piece) :
    ∃ stop ends, Scanned.string start (piece ++ tail) offset found endsInQuote =
      Scanned.string start tail stop (char :: found) ends := by
  by_cases escaped : ∃ rest, piece = '\\' :: rest
  · obtain ⟨rest, rfl⟩ := escaped
    rw [List.cons_append, Scanned.string]
    simp only [Char.reduceEq, if_true, if_false, read_escape tail written, List.drop_left]
    exact ⟨_, _, rfl⟩
  · cases written with
    | raw _ noQuote noBackslash =>
      rw [List.cons_append, Scanned.string, if_neg noQuote, if_neg noBackslash]
      exact ⟨_, _, rfl⟩
    | short _ | unit _ | pair _ _ _ => exact absurd ⟨_, rfl⟩ escaped

/-- The induction is on the written characters; what is found so far only grows. -/
theorem string_writtenChars {content text : List Char} (written : WrittenChars content text) :
    ∃ stop ends, Scanned.string start (text ++ tail) offset found endsInQuote =
      Scanned.string start tail stop (content.reverse ++ found) ends := by
  induction written generalizing offset found endsInQuote with
  | nil => exact ⟨offset, endsInQuote, rfl⟩
  | @cons char piece content text first rest ih =>
    obtain ⟨middle, ends, same⟩ := @string_writtenChar start offset found (text ++ tail) endsInQuote _ _
      first
    obtain ⟨stop, last, read⟩ := @ih middle (char :: found) ends
    refine ⟨stop, last, ?_⟩
    rw [List.append_assoc, same, read, List.reverse_cons, List.append_assoc, List.singleton_append]

theorem string_written {content text : List Char} (written : WrittenChars content text) :
    ∃ stop, Scanned.string start (text ++ '"' :: tail) offset found endsInQuote =
      .ok ⟨.scalar (.string (String.ofList (found.reverse ++ content))), tail, stop⟩ := by
  obtain ⟨stop, ends, read⟩ := string_writtenChars written
  refine ⟨stop + 1, ?_⟩
  rw [read, Scanned.string, if_pos rfl, List.reverse_append, List.reverse_reverse]

private theorem readLowSurrogate_unit {unit : Nat} {digits : List Char} (spelled : CodeUnit unit digits)
    (noLow : Escape.isLowSurrogate unit = false) (high : Nat) (rest : List Char) :
    Escape.readLowSurrogate high ('\\' :: 'u' :: (digits ++ rest)) =
      .error ⟨.loneHighSurrogate, 1⟩ := by
  simp [Escape.readLowSurrogate, spelled.read, noLow]

/-- Behind the first half of a pair, whatever is not the second half is refused. -/
private theorem readLowSurrogate_alone {behind : List Char} (quotable : Quotable behind)
    (alone : ¬BeginsLow behind) (high : Nat) (tail : List Char) :
    Escape.readLowSurrogate high (behind ++ '"' :: tail) = .error ⟨.loneHighSurrogate, 1⟩ := by
  cases quotable with
  | nil => rfl
  | char first rest =>
    cases first with
    | raw _ _ noBackslash =>
      unfold Escape.readLowSurrogate
      split
      next same => exact absurd (List.cons_eq_cons.mp same).1 noBackslash
      next => rfl
    | @short letter listed =>
      have noUnit : letter ≠ 'u' := by
        rintro rfl
        simp [shortEscapes] at listed
      unfold Escape.readLowSurrogate
      split
      next same => exact absurd (List.cons_eq_cons.mp (List.cons_eq_cons.mp same).2).1 noUnit
      next => rfl
    | @unit digits spelled =>
      simp only [List.cons_append, List.append_assoc]
      exact readLowSurrogate_unit spelled (no_surrogate _).2 high _
    | @pair _ _ beyond first second =>
      rename_i char _ _ _
      have range := char_range char
      simp only [List.cons_append, List.append_assoc]
      refine readLowSurrogate_unit first ?_ high _
      simp only [Escape.isLowSurrogate, decide_eq_false_iff_not]
      omega
  | @unit unit digits text first rest =>
    simp only [List.cons_append, List.append_assoc]
    refine readLowSurrogate_unit first ?_ high _
    simp only [Escape.isLowSurrogate, decide_eq_false_iff_not]
    exact fun low => alone ⟨unit, digits, text, low.1, low.2, first, rfl⟩

theorem string_torn {surrogate : Nat} {text : List Char}
    (torn : Content.WrittenAs (.torn surrogate) text) : ∃ place,
      Scanned.string start (text ++ '"' :: tail) offset found endsInQuote =
        .error ⟨if surrogate < 0xDC00 then .loneHighSurrogate else .loneLowSurrogate, place⟩ := by
  cases torn with
  | @torn front before _ digits behind written range spelled rest alone =>
    have read : Escape.read ('u' :: (digits ++ (behind ++ '"' :: tail))) =
        .error ⟨if surrogate < 0xDC00 then .loneHighSurrogate else .loneLowSurrogate, 1⟩ := by
      by_cases high : surrogate < 0xDC00
      · have isHigh : Escape.isHighSurrogate surrogate = true := decide_eq_true ⟨range.1, high⟩
        have dropped : (digits ++ (behind ++ '"' :: tail)).drop 4 = behind ++ '"' :: tail :=
          List.drop_left' spelled.length
        simp only [Escape.read, spelled.read, isHigh, dropped, if_true, if_pos high]
        exact readLowSurrogate_alone rest (alone high) surrogate tail
      · have noHigh : Escape.isHighSurrogate surrogate = false := decide_eq_false fun range => high range.2
        have isLow : Escape.isLowSurrogate surrogate = true :=
          decide_eq_true ⟨Nat.le_of_not_lt high, range.2⟩
        simp only [Escape.read, spelled.read, noHigh, isLow, if_true, if_neg high]
        rfl
    obtain ⟨stop, ends, same⟩ := @string_writtenChars start offset found
      ('\\' :: 'u' :: (digits ++ (behind ++ '"' :: tail))) endsInQuote _ _ written
    refine ⟨stop + 1 + 1, ?_⟩
    simp only [List.append_assoc, List.cons_append]
    rw [same, Scanned.string]
    simp only [Char.reduceEq, if_true, if_false, read]

end Scanning

section Contents
variable {text : List Char}

private theorem Content.WrittenAs.cons {char : Char} {piece : List Char} (first : WrittenChar char piece)
    {content : Content} (rest : content.WrittenAs text) :
    ∃ longer : Content, longer.WrittenAs (piece ++ text) := by
  cases rest with
  | @whole content text written =>
    refine ⟨.whole (String.ofList (char :: content.toList)), .whole ?_⟩
    rw [String.toList_ofList]
    exact .cons first written
  | torn written range spelled rest alone =>
    rw [← List.append_assoc]
    exact ⟨_, .torn (.cons first written) range spelled rest alone⟩

/-- Where the second half of a pair stands, what follows it can stand on its own. -/
private theorem behind_of_low {unit : Nat} {digits rest : List Char} (quotable : Quotable text)
    (low : 0xDC00 ≤ unit ∧ unit < 0xE000) (spelled : CodeUnit unit digits)
    (same : text = '\\' :: 'u' :: (digits ++ rest)) : Quotable rest := by
  have isLow : Escape.isLowSurrogate unit = true := decide_eq_true low
  have digitsSame {other : Nat} {others more : List Char} (spelledOther : CodeUnit other others)
      (same : others ++ more = digits ++ rest) : other = unit ∧ more = rest := by
    obtain ⟨rfl, rfl⟩ := List.append_inj same (spelledOther.length.trans spelled.length.symm)
    exact ⟨spelledOther.unique spelled, rfl⟩
  cases quotable with
  | nil => cases same
  | unit first behind =>
    obtain ⟨_, rfl⟩ := digitsSame first (List.cons_eq_cons.mp (List.cons_eq_cons.mp same).2).2
    exact behind
  | @char char piece text first behind =>
    exfalso
    cases first with
    | raw _ _ noBackslash => exact noBackslash (List.cons_eq_cons.mp same).1
    | short listed =>
      obtain ⟨rfl, _⟩ := List.cons_eq_cons.mp (List.cons_eq_cons.mp same).2
      simp [shortEscapes] at listed
    | unit first =>
      obtain ⟨rfl, _⟩ := digitsSame first (List.cons_eq_cons.mp (List.cons_eq_cons.mp same).2).2
      rw [(no_surrogate char).2] at isLow
      cases isLow
    | pair beyond first second =>
      have range := char_range char
      simp only [List.cons_append, List.append_assoc] at same
      obtain ⟨high, _⟩ := digitsSame first (List.cons_eq_cons.mp (List.cons_eq_cons.mp same).2).2
      omega

private theorem toNat_ofNat {code : Nat} (range : code < 0xD800 ∨ 0xDFFF < code ∧ code < 0x110000) :
    (Char.ofNat code).toNat = code := by
  have valid : code.isValidChar := range
  rw [Char.ofNat, dif_pos valid]
  rfl

private theorem exists_pair {high low : Nat} {digits lowDigits : List Char}
    (isHigh : 0xD800 ≤ high ∧ high < 0xDC00) (isLow : 0xDC00 ≤ low ∧ low < 0xE000)
    (first : CodeUnit high digits) (second : CodeUnit low lowDigits) :
    ∃ char, WrittenChar char ('\\' :: 'u' :: (digits ++ '\\' :: 'u' :: lowDigits)) := by
  have code := @toNat_ofNat (0x10000 + (high - 0xD800) * 0x400 + (low - 0xDC00)) (by omega)
  generalize Char.ofNat _ = char at code
  refine ⟨char, .pair (by omega) ?_ ?_⟩
  · convert first using 1
    omega
  · convert second using 1
    omega

/-- Whatever may stand within quotes is a content in writing, so no string of the format is left out. The
induction is on its length, since a pair of surrogates is two steps of what may stand within quotes. -/
theorem Quotable.exists_content (quotable : Quotable text) : ∃ content : Content, content.WrittenAs text := by
  obtain ⟨size, bound⟩ : ∃ size, text.length ≤ size := ⟨_, Nat.le_refl _⟩
  induction size generalizing text with
  | zero =>
    rw [Nat.le_zero, List.length_eq_zero_iff] at bound
    subst bound
    exact ⟨.whole "", .whole .nil⟩
  | succ size ih =>
    cases quotable with
    | nil => exact ⟨.whole "", .whole .nil⟩
    | @char _ piece _ first rest =>
      have something : 0 < piece.length := by cases first <;> simp
      rw [List.length_append] at bound
      obtain ⟨content, written⟩ := ih rest (by omega)
      exact written.cons first
    | @unit unit digits text first rest =>
      simp only [List.length_cons, List.length_append] at bound
      by_cases surrogate : 0xD800 ≤ unit ∧ unit < 0xE000
      · by_cases paired : unit < 0xDC00 ∧ BeginsLow text
        · obtain ⟨high, low, lowDigits, behind, above, below, second, rfl⟩ := paired
          obtain ⟨char, pair⟩ := exists_pair ⟨surrogate.1, high⟩ ⟨above, below⟩ first second
          simp only [List.length_cons, List.length_append] at bound
          obtain ⟨content, written⟩ := ih (behind_of_low rest ⟨above, below⟩ second rfl) (by omega)
          have longer := written.cons pair
          simp only [List.cons_append, List.append_assoc] at longer
          exact longer
        · exact ⟨.torn unit, .torn .nil surrogate first rest fun high low => paired ⟨high, low⟩⟩
      · have limit := first.lt
        have code := @toNat_ofNat unit (by omega)
        obtain ⟨content, written⟩ := ih rest (by omega)
        exact written.cons (.unit (code.symm ▸ first))

end Contents

end PracticeGrammar.Json
