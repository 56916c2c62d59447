import PracticeGrammar.Loading
import PracticeGrammar.Proofs.CompiledReading
import PracticeGrammar.Proofs.EqualGrammars

/-! Whole texts of rule sets. Parsing a text that writes a rule set gives that rule set back, up to
equality, and so loading it comes out as validating the rule set itself does. -/

namespace PracticeGrammar
open Json

namespace Compiled

private theorem leads_rules {order : List (String × Production)} {members : List (Content × Value)}
    (each : List.Forall₂ (fun rule member => member.1 = .whole rule.1 ∧ rule.2.EncodedAs member.2)
      order members) :
    ∃ results, List.Forall₂ RuleSet.RulesAlike results order ∧
      ∀ done : RuleSet, LeadsThrough (.rules done) (memberMarks members)
        (.rules (results.foldl (fun rules rule => rules.insert rule.1 rule.2) done)) := by
  -- What the rules are read as does not depend on the rules that are done before them.
  induction each with
  | nil => exact ⟨[], .nil, fun _ => .nil⟩
  | @cons rule member order members first _ ih =>
    obtain ⟨name, body⟩ := rule
    obtain ⟨_, value⟩ := member
    obtain ⟨rfl, encoded⟩ := first
    obtain ⟨result, same, read⟩ := readAs_of_encodedAs encoded
    obtain ⟨results, alike, through⟩ := ih
    refine ⟨(name, result) :: results, .cons ⟨rfl, same⟩ alike, fun done => ?_⟩
    exact .cons rfl (leads_rule read done name) (through _)

/-- The closing bracket of all rules ends the reading. -/
private theorem run_document {members : List (Content × Value)} {result : RuleSet}
    (through : LeadsThrough (.rules .empty) (memberMarks members) (.rules result))
    {items : List Lexeme}
    (tokens : items.map Lexeme.token = (Value.object members).marks.map Mark.token) (ending : Ending) :
    Reader.run ending .initial items = .ok result := by
  rw [Value.marks, ← List.cons_append, List.map_append] at tokens
  obtain ⟨front, back, rfl, opened, closed⟩ := List.map_eq_append_iff.mp tokens
  obtain ⟨last, rfl, closing⟩ := List.map_eq_singleton_iff.mp closed
  have leads : Leads .document false
      (.opening .object :: commaSeparated (memberMarks members)) (.rules result) false :=
    .value rfl rfl through.commaSeparated
  obtain ⟨base, runs⟩ := leads.run opened ending 0 [last]
  refine runs.trans ?_
  simp only [Reader.run, Reader.step, Reader.take, closing]
  rfl

end Compiled

namespace RuleSet

/-- The order in which rules are read leaves no trace. -/
private theorem ofList_equal {results order : List (String × Production)} {rules : RuleSet}
    (each : List.Forall₂ RulesAlike results order) (same : order.Perm rules.entries) :
    equal (NameMap.ofList results) rules = true := by
  have composed : Relation.Comp (List.Forall₂ RulesAlike) List.Perm results rules.entries :=
    ⟨order, each, same⟩
  rw [List.forall₂_comp_perm_eq_perm_comp_forall₂] at composed
  obtain ⟨sorted, shuffled, alike⟩ := composed
  have names : sorted.map Prod.fst = rules.names :=
    map_eq_of_forall₂ (fun _ _ alike => alike.1) alike
  have ascending : Entries.Ascending sorted := by
    have inOrder := rules.names_ascending
    rw [← names] at inOrder
    exact List.pairwise_map.mp inOrder
  rw [@NameMap.ofList_eq_of_perm _ _ ⟨sorted, ascending⟩ shuffled]
  exact equalEntries_iff.mpr alike

theorem parse_written {rules : RuleSet} {value : Value} {text : String}
    (encoded : rules.EncodedAs value) (written : value.WrittenAs text) :
    ∃ result, parse text = .ok result ∧ result.equal rules = true := by
  obtain ⟨items, stop, lexemes, tokens⟩ :=
    Lexemes.ofText_written written (faults_of_encodedAs encoded)
  obtain ⟨order, members, rfl, same, each⟩ := encoded
  obtain ⟨results, alike, through⟩ := Compiled.leads_rules each
  refine ⟨NameMap.ofList results, ?_, ofList_equal alike same⟩
  have read : Compiled.read text.toList = .ok (NameMap.ofList results) := by
    unfold Compiled.read
    rw [lexemes]
    exact Compiled.run_document (through .empty) tokens _
  rw [parse, read]

/-- Every text that writes a rule set is read as a rule set equal to it, and loading the text gives
this rule set if the written one is valid, and otherwise the violation that is found in the written
one. -/
theorem written_rules_are_read_back {rules : RuleSet} {value : Value} {text : String}
    (encoded : rules.EncodedAs value) (written : value.WrittenAs text) :
    ∃ result, parse text = .ok result ∧ result.equal rules = true ∧
      (∀ valid, rules.validate = .ok valid → load text = .ok result) ∧
      ∀ violation, rules.validate = .error violation → load text = .error violation := by
  obtain ⟨result, parsed, same⟩ := parse_written encoded written
  have loaded : load text = rules.validate.map fun _ => result := by
    rw [load, parsed]
    exact validate_of_equal same
  refine ⟨result, parsed, same, ?_, ?_⟩
  · intro valid accepted
    rw [loaded, accepted]
    rfl
  · intro violation rejected
    rw [loaded, rejected]
    rfl

def tenth : Numeral := ⟨none, ['0'], some ['0', '1'], some ⟨none, ['1']⟩⟩

/-- An interjection that comes one time in ten. -/
def interjection : RuleSet where
  entries := [("start", .opt ⟨0x3fb999999999999a⟩ (.lit "h\u00e9"))]
  ascending := List.pairwise_singleton _ _

def interjectionValue : Value :=
  .object [("start", .object [("opt", .object [("opt", .object [("lit", .text "h\u00e9")]),
    ("f", .number tenth)])])]

def interjectionText : String :=
  " \x7b\"start\":\x7b\"opt\":\x7b\"opt\":\x7b\"lit\":\"h\\u00E9\"\x7d, \"f\":0.01e1\x7d\x7d\x7d\n"

private theorem interjection_encodedAs : interjection.EncodedAs interjectionValue := by
  have read : (Number.ofNumeral tenth).toBinary64 = ⟨0x3fb999999999999a⟩ := by decide +kernel
  have rounded : tenth.RoundsTo ⟨0x3fb999999999999a⟩ := by
    refine ⟨read ▸ Number.ofNumeral_nearest tenth, fun noFraction => ?_⟩
    cases noFraction
  have body : Production.EncodedAs (.opt ⟨0x3fb999999999999a⟩ (.lit "h\u00e9")) (.object [("opt",
      .object [("opt", .object [("lit", .text "h\u00e9")]), ("f", .number tenth)])]) :=
    ⟨_, tenth, _, rfl, .swap _ _ _, rounded, rfl⟩
  exact ⟨_, _, rfl, .refl _, .cons ⟨rfl, body⟩ .nil⟩

private theorem interjection_writtenAs : interjectionValue.WrittenAs interjectionText := by
  have blank : IsSpace [' '] := by simp [IsSpace]
  have newline : IsSpace ['\n'] := by simp [IsSpace]
  have accent : WrittenChar '\u00e9' ['\\', 'u', '0', '0', 'E', '9'] :=
    .unit (.digits (.inl rfl) (.inl rfl) (.inr rfl) (.inl rfl))
  have literal : Spelled (.text "h\u00e9") ('"' :: ("h\\u00E9".toList ++ ['"'])) :=
    .text (.whole (.cons (.raw (by decide) (by decide) (by decide)) (.cons accent .nil)))
  have standard : tenth.IsStandard := by constructor <;> simp [tenth]
  have number : Spelled (.number tenth) (tenth.text 'e') := .number standard (.inl rfl)
  have layout : Layout interjectionValue.marks _ :=
    .cons blank (.opening .object) <| .name "start" (by decide) <|
    .tight (.opening .object) <| .name "opt" (by decide) <|
    .tight (.opening .object) <| .name "opt" (by decide) <|
    .tight (.opening .object) <| .name "lit" (by decide) <|
    .tight literal <| .tight (.closing .object) <| .tight .comma <|
    .cons blank (.text (.whole (.plain (by decide)))) <| .tight .colon <| .tight number <|
    .tight (.closing .object) <| .tight (.closing .object) <| .tight (.closing .object) <| .nil newline
  exact layout

/-- Escapes, white space, the order of the fields and the rounding of a numeral come out. -/
theorem interjection_is_read_back :
    interjection.EncodedAs interjectionValue ∧ interjectionValue.WrittenAs interjectionText ∧
      interjection.validate = .ok interjection ∧
      ∃ result, result.equal interjection = true ∧ load interjectionText = .ok result := by
  have accepted : interjection.validate = .ok interjection := rfl
  obtain ⟨result, _, same, loaded, _⟩ :=
    written_rules_are_read_back interjection_encodedAs interjection_writtenAs
  exact ⟨interjection_encodedAs, interjection_writtenAs, accepted, result, same, loaded _ accepted⟩

end RuleSet
end PracticeGrammar
