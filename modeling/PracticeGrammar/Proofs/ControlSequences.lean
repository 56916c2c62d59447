import PracticeGrammar.Text.Plain

/-! Texts read from any place in a control sequence. What is visible of a text and where its reading
ends depend on that place alone, so a text is read piece by piece. Whatever a coloured name holds,
reading it ends outside all sequences. -/

namespace PracticeGrammar.Text

/-- The place behind a text that is read from a given place. -/
def Control.after (control : Control) (text : List Char) : Control := text.foldl Control.next control

theorem Control.after_append (control : Control) (front back : List Char) :
    control.after (front ++ back) = (control.after front).after back := List.foldl_append

theorem visible_append (control : Control) (front back : List Char) :
    visible control (front ++ back) = visible control front ++ visible (control.after front) back := by
  induction front generalizing control with
  | nil => rfl
  | cons char rest ih =>
    have behind : control.after (char :: rest) = (control.next char).after rest := rfl
    simp only [List.cons_append, visible, ih, behind]
    split <;> rfl

theorem visible_sublist (control : Control) (text : List Char) : (visible control text).Sublist text := by
  induction text generalizing control with
  | nil => exact .slnil
  | cons char rest ih =>
    unfold visible
    split
    · exact (ih _).cons_cons char
    · exact (ih _).cons char

theorem escape_not_mem_visible (control : Control) (text : List Char) :
    escape ∉ visible control text := by
  induction text generalizing control with
  | nil => simp [visible]
  | cons char rest ih =>
    unfold visible
    split
    next shown =>
      intro member
      rcases List.mem_cons.mp member with same | member
      · exact shown.2 same.symm
      · exact ih _ member
    next => exact ih _

section Clear
variable {text : List Char} (clear : escape ∉ text)
include clear

theorem Control.after_clear : Control.outside.after text = .outside := by
  induction text with
  | nil => rfl
  | cons char rest ih =>
    obtain ⟨different, clear⟩ := List.ne_and_not_mem_of_not_mem_cons clear
    have next : Control.outside.next char = .outside := if_neg (Ne.symm different)
    rw [Control.after, List.foldl_cons, next]
    exact ih clear

theorem visible_clear : visible .outside text = text := by
  induction text with
  | nil => rfl
  | cons char rest ih =>
    obtain ⟨different, clear⟩ := List.ne_and_not_mem_of_not_mem_cons clear
    have next : Control.outside.next char = .outside := if_neg (Ne.symm different)
    rw [visible, next, ih clear, if_pos ⟨rfl, Ne.symm different⟩]

end Clear

/-- A complete sequence: what stands between the bracket and the letter holds no other letter. -/
def sequence (parameters : List Char) (letter : Char) : List Char :=
  escape :: '[' :: (parameters ++ [letter])

section Sequence
variable {parameters : List Char} {letter : Char}
  (noLetter : ∀ char ∈ parameters, char.isAlpha = false) (isLetter : letter.isAlpha = true)
include noLetter isLetter

private theorem after_parameters :
    Control.inSequence.after (parameters ++ [letter]) = .outside ∧
      visible .inSequence (parameters ++ [letter]) = [] := by
  induction parameters with
  | nil => simp [Control.after, visible, Control.next, isLetter]
  | cons char rest ih =>
    obtain ⟨other, noLetter⟩ := List.forall_mem_cons.mp noLetter
    have next : Control.inSequence.next char = .inSequence := by simp [Control.next, other]
    obtain ⟨after, hidden⟩ := ih noLetter
    constructor
    · rw [List.cons_append, Control.after, List.foldl_cons, next]
      exact after
    · rw [List.cons_append, visible, next, hidden]
      rfl

theorem Control.after_sequence : Control.outside.after (sequence parameters letter) = .outside :=
  (after_parameters noLetter isLetter).1

theorem visible_sequence : visible .outside (sequence parameters letter) = [] :=
  (after_parameters noLetter isLetter).2

end Sequence

/-- The last character is an escape character, and no sequence that is already open takes it up. -/
def EndsInEscape (text : List Char) : Prop :=
  ∃ before, text = before ++ [escape] ∧ Control.outside.after before = .outside

theorem after_eq_afterEscape_iff {text : List Char} :
    Control.outside.after text = .afterEscape ↔ EndsInEscape text := by
  have last (control : Control) (char : Char) :
      control.next char = .afterEscape ↔ control = .outside ∧ char = escape := by
    cases control <;> simp only [Control.next] <;> split <;> simp_all
  have split (before : List Char) (char : Char) :
      Control.outside.after (before ++ [char]) = (Control.outside.after before).next char :=
    Control.after_append ..
  constructor
  · intro ends
    rcases text.eq_nil_or_concat with rfl | ⟨before, char, rfl⟩
    · cases ends
    · rw [List.concat_eq_append] at ends ⊢
      rw [split, last] at ends
      exact ⟨before, by rw [ends.2], ends.1⟩
  · rintro ⟨before, rfl, outside⟩
    rw [split, last]
    exact ⟨outside, rfl⟩

section Red
variable (name : List Char)

private theorem red_eq : red name = sequence "31".toList 'm' ++ (name ++ sequence "39".toList 'm') := by
  simp [red, sequence]

private theorem after_opening : Control.outside.after (sequence "31".toList 'm') = .outside :=
  Control.after_sequence (by simp) (by decide)

theorem visible_red : visible .outside (red name) =
    visible .outside name ++ visible (Control.outside.after name) (sequence "39".toList 'm') := by
  have opening : visible .outside (sequence "31".toList 'm') = [] :=
    visible_sequence (by simp) (by decide)
  rw [red_eq, visible_append, visible_append, opening, after_opening, List.nil_append]

/-- The letter of the closing colour ends whatever sequence the name leaves open. -/
theorem Control.after_red : Control.outside.after (red name) = .outside := by
  rw [red_eq, after_append, after_append, after_opening]
  cases Control.outside.after name <;> decide

end Red

/-- A coloured name reads as if it stood alone and without colours. Only an escape character at its
end takes up that of the closing colour, whose other characters are then in sight. -/
theorem colours_of_a_name_are_dropped {front back : List Char} (frontClear : escape ∉ front)
    (backClear : escape ∉ back) (name : List Char) :
    (¬EndsInEscape name →
      plain (front ++ red name ++ back) = fold (front ++ visible .outside name ++ back)) ∧
    (EndsInEscape name → plain (front ++ red name ++ back) =
      fold (front ++ visible .outside name ++ "[39m".toList ++ back)) := by
  have shown : visible .outside (front ++ red name ++ back) = front ++ visible .outside name ++
      visible (Control.outside.after name) (sequence "39".toList 'm') ++ back := by
    rw [visible_append, visible_append, Control.after_append, Control.after_clear frontClear,
      Control.after_red, visible_clear frontClear, visible_clear backClear, visible_red,
      ← List.append_assoc front]
  unfold plain
  rw [shown, ← after_eq_afterEscape_iff]
  constructor
  · intro elsewhere
    have hidden : visible (Control.outside.after name) (sequence "39".toList 'm') = [] := by
      cases place : Control.outside.after name with
      | outside => decide
      | afterEscape => exact absurd place elsewhere
      | inSequence => decide
    rw [hidden, List.append_nil]
  · intro place
    have bare : visible .afterEscape (sequence "39".toList 'm') = "[39m".toList := by decide
    rw [place, bare]

/-- The closing colour ends a sequence that the name begins. -/
theorem unfinished_name_is_closed :
    escape ∉ "got ".toList ∧ escape ∉ ", wanted".toList ∧
      plain ("got ".toList ++ red "re\x1b[1mpeat\x1b[3".toList ++ ", wanted".toList) =
        fold ("got ".toList ++ visible .outside "re\x1b[1mpeat\x1b[3".toList ++ ", wanted".toList) := by
  have frontClear : escape ∉ "got ".toList := by decide
  have backClear : escape ∉ ", wanted".toList := by decide
  have inSequence : ¬EndsInEscape "re\x1b[1mpeat\x1b[3".toList := by
    rw [← after_eq_afterEscape_iff]
    decide
  exact ⟨frontClear, backClear, (colours_of_a_name_are_dropped frontClear backClear _).1 inSequence⟩

/-- A name that is just an escape character leaves a trace of its colours. -/
theorem escape_bares_its_colour :
    escape ∉ "got ".toList ∧ escape ∉ ", wanted".toList ∧
      plain ("got ".toList ++ red [escape] ++ ", wanted".toList) = "got [39m, wanted".toList ∧
      plain ("got ".toList ++ red [escape] ++ ", wanted".toList) ≠
        fold ("got ".toList ++ visible .outside [escape] ++ ", wanted".toList) := by decide

end PracticeGrammar.Text
