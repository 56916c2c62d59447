import PracticeGrammar.Loading
import PracticeGrammar.Proofs.CompiledShapes
import PracticeGrammar.Proofs.LenientReading
import PracticeGrammar.Proofs.ReadPrefixes

/-! Which texts are taken for rule sets: those whose tokens begin with a document in the lenient
format, and no others. This is more than the compiled format. -/

namespace PracticeGrammar
open Json

namespace RuleSet
open Compiled

/-- The text begins with tokens that stand for the rules. How it goes on does not matter. -/
def LenientlyWritten (rules : RuleSet) (text : String) : Prop :=
  ∃ front rest, (Lexemes.ofText text.toList).items.map Lexeme.token = front ++ rest ∧
    LenientDocument rules front

/-- The text is an object of nodes that have, at every depth, the shapes of their tags. -/
def InCompiledFormat (text : String) : Prop :=
  ∃ members notes, ShapedAll (members.map Prod.snd) notes ∧ (∀ tag, .unknownTag tag ∉ notes) ∧
    (Value.object members).WrittenAs text

theorem read_eq_ok_iff {rules : RuleSet} {text : String} :
    Compiled.read text.toList = .ok rules ↔ rules.LenientlyWritten text := by
  unfold Compiled.read
  rw [run_eq_ok_iff]
  constructor
  · rintro ⟨front, token, rest, last, tokens, steps, completes⟩
    refine ⟨front ++ [token], rest, ?_, document_of_steps steps completes⟩
    rw [tokens, List.append_assoc, List.singleton_append]
  · rintro ⟨front, rest, tokens, document⟩
    obtain ⟨front, token, last, rfl, steps, completes⟩ := document.completes
    refine ⟨front, token, rest, last, ?_, steps, completes⟩
    rw [tokens, List.append_assoc, List.singleton_append]

theorem parse_eq_ok_iff {rules : RuleSet} {text : String} :
    parse text = .ok rules ↔ Compiled.read text.toList = .ok rules := by
  unfold parse
  cases Compiled.read text.toList <;> simp

/-- Loading comes to a rule set if parsing does and validation accepts what was parsed. -/
theorem load_eq_ok_iff {rules : RuleSet} {text : String} :
    load text = .ok rules ↔ ∃ parsed, parse text = .ok parsed ∧ parsed.validate = .ok rules := by
  unfold load
  cases parse text <;> simp

theorem load_eq_error_iff {violation : Violation} {text : String} :
    load text = .error violation ↔ parse text = .error violation ∨
      ∃ parsed, parse text = .ok parsed ∧ parsed.validate = .error violation := by
  unfold load
  cases parse text <;> simp

/-- A text is parsed as the rules that it stands for in the lenient format, and refused if it stands
for none. -/
theorem parse_follows_the_lenient_format (text : String) :
    (∀ rules, parse text = .ok rules ↔ rules.LenientlyWritten text) ∧
      ((∀ rules : RuleSet, ¬rules.LenientlyWritten text) →
        ∃ detail, parse text = .error (.malformedNode detail)) := by
  constructor
  · intro rules
    rw [← read_eq_ok_iff, parse]
    cases Compiled.read text.toList <;> simp
  · intro none
    cases result : Compiled.read text.toList with
    | ok rules => exact absurd (read_eq_ok_iff.mp result) (none rules)
    | error failure => exact ⟨failure.detail, by rw [parse, result]⟩

private theorem opener_mem_of_layout {bracket : Bracket} {marks : List Mark} {text : List Char}
    (layout : Layout (.opening bracket :: marks) text) : bracket.opener ∈ text := by
  cases layout with
  | cons space spelled rest =>
    cases spelled
    simp

/-- The text `null` is no object, and is parsed as a set of no rules. -/
theorem null_is_parsed : parse "null" = .ok .empty ∧ ¬InCompiledFormat "null" := by
  constructor
  · have lexemes : Lexemes.ofText "null".toList = ⟨[⟨.scalar .null, 0, 4⟩], .finished 4⟩ := by
      decide +kernel
    have read : Compiled.read "null".toList = .ok .empty := by
      unfold Compiled.read
      rw [lexemes]
      rfl
    rw [parse, read]
  · rintro ⟨members, notes, _, _, written⟩
    have opener := opener_mem_of_layout written
    simp [Bracket.opener] at opener

end RuleSet
end PracticeGrammar
