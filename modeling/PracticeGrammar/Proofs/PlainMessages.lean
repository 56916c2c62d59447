import PracticeGrammar.Proofs.ControlSequences

/-! What survives when a message is made plain. A coloured word that holds no blank and no escape
character keeps its place between the words around it, all its characters and their order. -/

namespace PracticeGrammar.Text

theorem words_append_blank (front back : List Char) :
    words (front ++ ' ' :: back) = words front ++ words back := by
  have blank : isBlank ' ' = true := rfl
  unfold words
  rw [List.splitOnP_append_cons front back blank, List.filter_append]

theorem words_solid {word : List Char} (solid : ∀ char ∈ word, isBlank char = false)
    (something : word ≠ []) : words word = [word] := by
  rw [words, List.splitOnP_eq_singleton solid]
  simpa using something

theorem infix_fold_of_mem {word text : List Char} (member : word ∈ words text) :
    word <:+: fold text := by
  unfold fold
  generalize words text = pieces at member ⊢
  induction pieces with
  | nil => cases member
  | cons first rest ih =>
    cases rest with
    | nil =>
      have alone : word = first := List.mem_singleton.mp member
      exact ⟨[], [], by rw [alone, List.intercalate_singleton, List.append_nil, List.nil_append]⟩
    | cons second more =>
      rw [List.intercalate_cons_cons]
      rcases List.mem_cons.mp member with rfl | member
      · rw [List.append_assoc]
        exact (List.prefix_append _ _).isInfix
      · exact (ih member).trans (List.suffix_append _ _).isInfix

theorem infix_plain_of_red {front word : List Char} (clear : escape ∉ front)
    (plainWord : escape ∉ word) (solid : ∀ char ∈ word, isBlank char = false) (back : List Char) :
    word <:+: plain (front ++ ' ' :: (red word ++ ' ' :: back)) := by
  by_cases nothing : word = []
  · rw [nothing]
    exact List.nil_infix
  have shown : visible .outside (front ++ ' ' :: (red word ++ ' ' :: back)) =
      front ++ ' ' :: (word ++ ' ' :: visible .outside back) := by
    have coloured : visible .outside (red word ++ ' ' :: back) =
        word ++ visible .outside (' ' :: back) := by
      rw [visible_append, Control.after_red, visible_red, visible_clear plainWord,
        Control.after_clear plainWord, visible_sequence (by simp) (by decide), List.append_nil]
    rw [visible_append, Control.after_clear clear, visible_clear clear]
    exact congrArg (front ++ ' ' :: ·) coloured
  apply infix_fold_of_mem
  rw [shown, words_append_blank, words_append_blank, words_solid solid nothing]
  simp

end PracticeGrammar.Text
