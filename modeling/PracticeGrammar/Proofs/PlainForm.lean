import Mathlib.Data.List.Chain
import PracticeGrammar.Proofs.PlainMessages

/-! Plain text is a normal form. It is one line of words with single spaces between them, holds what
is not blank of the message in its order, and is plain already. Complete control sequences between
the characters of a message make no difference to it. -/

namespace PracticeGrammar.Text

/-- The characters of a text that are not blank. -/
def ink (text : List Char) : List Char := text.filter fun char => !isBlank char

/-- Every space stands between two other characters. -/
structure SingleSpaced (text : List Char) : Prop where
  inside : text.IsChain fun left right => left ≠ ' ' ∨ right ≠ ' '
  start : text.head? ≠ some ' '
  stop : text.getLast? ≠ some ' '

/-- A text without escape characters whose only blanks are single spaces inside it. -/
structure IsLine (text : List Char) : Prop extends SingleSpaced text where
  noEscape : escape ∉ text
  onlySpaces : ∀ char ∈ text, isBlank char = true → char = ' '

def IsWord (word : List Char) : Prop := word ≠ [] ∧ ∀ char ∈ word, isBlank char = false

section Words
variable {text word : List Char}

theorem flatten_words (text : List Char) : (words text).flatten = ink text := by
  have pieces : (text.splitOnP isBlank).flatten = ink text := by
    induction text with
    | nil => rfl
    | cons first rest ih =>
      obtain ⟨head, tail, split⟩ := List.exists_cons_of_ne_nil (List.splitOnP_ne_nil isBlank rest)
      rw [split] at ih
      rw [List.splitOnP_cons_eq_if_modifyHead, split]
      unfold ink at ih ⊢
      split
      next blank => simpa [blank] using ih
      next solid => simpa [solid] using ih
  rw [← pieces, words, List.flatten_filter_not_isEmpty]

theorem mem_ink_iff {char : Char} : char ∈ ink text ↔ char ∈ text ∧ isBlank char = false := by
  simp [ink]

theorem isWord_of_mem (member : word ∈ words text) : IsWord word := by
  constructor
  · simpa using (List.mem_filter.mp member).2
  · intro char inside
    have inked : char ∈ ink text := by
      rw [← flatten_words]
      exact List.mem_flatten_of_mem member inside
    exact (mem_ink_iff.mp inked).2

theorem ne_space_of_mem (solid : IsWord word) {char : Char} (member : char ∈ word) : char ≠ ' ' := by
  rintro rfl
  have blank := solid.2 _ member
  contradiction

end Words

section Lines
variable {pieces : List (List Char)}

theorem words_intercalate (each : ∀ piece ∈ pieces, IsWord piece) :
    words ([' '].intercalate pieces) = pieces := by
  induction pieces with
  | nil => rfl
  | cons first rest ih =>
    obtain ⟨⟨something, solid⟩, others⟩ := List.forall_mem_cons.mp each
    cases rest with
    | nil => rw [List.intercalate_singleton, words_solid solid something]
    | cons second more =>
      rw [List.intercalate_cons_cons, List.append_assoc, List.singleton_append, words_append_blank,
        words_solid solid something, ih others, List.singleton_append]

theorem words_fold (text : List Char) : words (fold text) = words text :=
  words_intercalate fun _ member => isWord_of_mem member

theorem ink_fold (text : List Char) : ink (fold text) = ink text := by
  rw [← flatten_words, words_fold, flatten_words]

theorem fold_fold (text : List Char) : fold (fold text) = fold text := by
  rw [fold, words_fold, fold]

private theorem intercalate_append {front back : List (List Char)} (here : front ≠ [])
    (there : back ≠ []) :
    [' '].intercalate (front ++ back) = [' '].intercalate front ++ ' ' :: [' '].intercalate back := by
  induction front with
  | nil => exact absurd rfl here
  | cons first rest ih =>
    cases rest with
    | nil => simp [List.intercalate_cons_of_ne_nil there]
    | cons second more =>
      have behind := ih (List.cons_ne_nil second more)
      rw [List.cons_append] at behind
      rw [List.cons_append, List.cons_append, List.intercalate_cons_cons, behind,
        List.intercalate_cons_cons]
      simp

theorem fold_append_blank {front back : List Char} (here : words front ≠ []) (there : words back ≠ []) :
    fold (front ++ ' ' :: back) = fold front ++ ' ' :: fold back := by
  rw [fold, words_append_blank, intercalate_append here there]
  rfl

private theorem singleSpaced_word {word : List Char} (solid : IsWord word) : SingleSpaced word := by
  refine ⟨?_, ?_, ?_⟩
  · apply List.Pairwise.isChain
    apply List.pairwise_of_forall_mem_list
    exact fun left member _ _ => .inl (ne_space_of_mem solid member)
  · intro first
    exact ne_space_of_mem solid (List.mem_of_mem_head? first) rfl
  · intro last
    exact ne_space_of_mem solid (List.mem_of_mem_getLast? last) rfl

private theorem SingleSpaced.join {word line : List Char} (solid : IsWord word)
    (spaced : SingleSpaced line) (something : line ≠ []) : SingleSpaced (word ++ ' ' :: line) := by
  have first := singleSpaced_word solid
  refine ⟨?_, ?_, ?_⟩
  · apply first.inside.append
    · apply List.IsChain.cons spaced.inside
      exact fun next here => .inr fun space => spaced.start (space ▸ here)
    · exact fun last here _ _ => .inl fun space => first.stop (space ▸ here)
  · rw [List.head?_append_of_ne_nil _ solid.1]
    exact first.start
  · rw [List.getLast?_append_of_ne_nil _ (List.cons_ne_nil _ _), List.getLast?_cons_of_ne_nil something]
    exact spaced.stop

theorem singleSpaced_intercalate (each : ∀ piece ∈ pieces, IsWord piece) :
    SingleSpaced ([' '].intercalate pieces) := by
  induction pieces with
  | nil => exact ⟨.nil, by simp, by simp⟩
  | cons first rest ih =>
    obtain ⟨solid, others⟩ := List.forall_mem_cons.mp each
    cases rest with
    | nil =>
      rw [List.intercalate_singleton]
      exact singleSpaced_word solid
    | cons second more =>
      have something : [' '].intercalate (second :: more) ≠ [] := by
        intro nothing
        have words := words_intercalate others
        rw [nothing] at words
        cases words
      rw [List.intercalate_cons_cons, List.append_assoc, List.singleton_append]
      exact (ih others).join solid something

private theorem mem_intercalate {char : Char} (member : char ∈ [' '].intercalate pieces) :
    char = ' ' ∨ char ∈ pieces.flatten := by
  induction pieces with
  | nil => cases member
  | cons first rest ih =>
    cases rest with
    | nil => exact .inr (by simpa using member)
    | cons second more =>
      rw [List.intercalate_cons_cons, List.append_assoc, List.mem_append, List.mem_append] at member
      rw [List.flatten_cons, List.mem_append]
      rcases member with first | space | later
      · exact .inr (.inl first)
      · exact .inl (List.mem_singleton.mp space)
      · exact (ih later).imp_right .inr

theorem isLine_fold {text : List Char} (clear : escape ∉ text) : IsLine (fold text) := by
  have shown {char : Char} (member : char ∈ fold text) : char = ' ' ∨ char ∈ ink text := by
    rw [← flatten_words]
    exact mem_intercalate member
  refine ⟨singleSpaced_intercalate fun _ => isWord_of_mem, ?_, ?_⟩
  · intro member
    rcases shown member with space | inked
    · cases space
    · exact clear (mem_ink_iff.mp inked).1
  · intro char member blank
    rcases shown member with space | inked
    · exact space
    · rw [(mem_ink_iff.mp inked).2] at blank
      contradiction

end Lines

/-- The second text is the first with complete control sequences between its characters. -/
inductive Coloured : List Char → List Char → Prop where
  | nil : Coloured [] []
  | char {text coloured} (char : Char) (rest : Coloured text coloured) :
      Coloured (char :: text) (char :: coloured)
  | sequence {text coloured parameters letter} (noLetter : ∀ char ∈ parameters, char.isAlpha = false)
      (isLetter : letter.isAlpha = true) (rest : Coloured text coloured) :
      Coloured text (Text.sequence parameters letter ++ coloured)

theorem Coloured.visible {text coloured : List Char} (sequences : Coloured text coloured)
    (clear : escape ∉ text) : Text.visible .outside coloured = text := by
  induction sequences with
  | nil => rfl
  | char char rest ih =>
    obtain ⟨different, clear⟩ := List.ne_and_not_mem_of_not_mem_cons clear
    have next : Control.outside.next char = .outside := if_neg (Ne.symm different)
    rw [Text.visible, next, ih clear, if_pos ⟨rfl, Ne.symm different⟩]
  | sequence noLetter isLetter rest ih =>
    rw [visible_append, visible_sequence noLetter isLetter, Control.after_sequence noLetter isLetter,
      ih clear, List.nil_append]

theorem plain_clear {text : List Char} (clear : escape ∉ text) : plain text = fold text := by
  rw [plain, visible_clear clear]

theorem isLine_plain (message : List Char) : IsLine (plain message) :=
  isLine_fold (escape_not_mem_visible _ message)

/-- Making a message plain gives it a normal form: one line, in which the message keeps the order of
what is not blank. A message without escape characters keeps all of that, and complete control
sequences inside it change nothing. -/
theorem plain_is_a_normal_form (message : List Char) :
    IsLine (plain message) ∧ (ink (plain message)).Sublist (ink message) ∧
      plain (plain message) = plain message ∧
      (escape ∉ message → plain message = fold message ∧ ink (plain message) = ink message) ∧
      ∀ coloured, escape ∉ message → Coloured message coloured → plain coloured = plain message := by
  refine ⟨isLine_plain message, ?_, ?_, ?_, ?_⟩
  · rw [plain, ink_fold]
    exact (visible_sublist _ message).filter _
  · rw [plain_clear (isLine_plain message).noEscape, plain, fold_fold]
  · intro clear
    rw [plain_clear clear]
    exact ⟨rfl, ink_fold message⟩
  · intro coloured clear sequences
    rw [plain_clear clear, plain, sequences.visible clear]

/-- What stands before the letter of a sequence may be blank or an escape character. -/
theorem styled_word_reads_alike :
    escape ∉ ['a', 'b'] ∧ Coloured ['a', 'b'] ('a' :: (sequence "1; \x1b".toList 'm' ++ ['b'])) ∧
      plain ('a' :: (sequence "1; \x1b".toList 'm' ++ ['b'])) = plain ['a', 'b'] := by
  have clear : escape ∉ ['a', 'b'] := by decide
  have styled : Coloured ['a', 'b'] ('a' :: (sequence "1; \x1b".toList 'm' ++ ['b'])) :=
    .char 'a' (.sequence (by simp) (by decide) (.char 'b' .nil))
  have alike := (plain_is_a_normal_form ['a', 'b']).2.2.2.2
  exact ⟨clear, styled, alike _ clear styled⟩

end PracticeGrammar.Text
