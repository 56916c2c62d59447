import PracticeGrammar.Proofs.NameOrder
import PracticeGrammar.Proofs.WellFormedness

/-! Which violation is reported. The bodies come in the order of the octets of the rule names, and
all that can be wrong in them comes before a rule that is not in use. -/

namespace PracticeGrammar.RuleSet

theorem names_octets_ascending (rules : RuleSet) :
    rules.names.Pairwise fun first second => Names.octets first < Names.octets second :=
  rules.names_ascending.imp Names.lt_iff_octets_lt.mp

/-- Nodes are never called malformed: that is said only of texts. -/
theorem kind_of_mem_bodyViolations {rules : RuleSet} {violation : Violation}
    (member : violation ∈ rules.bodyViolations) : violation.kind ≠ .malformedNode := by
  obtain ⟨rule, located⟩ := located_of_mem_bodyViolations member
  cases violation with
  | malformedNode _ => cases located
  | emptySequence _ | emptyAlternative _ | invalidProbability _ _ | unresolvedReference _ _
  | unreferencedRule _ => simp [Violation.kind]

theorem rejected_iff {rules : RuleSet} {violation : Violation} :
    rules.validate = .error violation ↔
      rules.bodyViolations.head? = some violation ∨
      rules.bodyViolations = [] ∧ ∃ name, violation = .unreferencedRule name ∧
        rules.Unused name ∧ ∀ other, rules.Unused other → other = name ∨ name < other := by
  simp only [← unused?_eq_some_iff, validate_eq]
  cases rules.bodyViolations with
  | cons first rest => simp [Violation.firstOr]
  | nil =>
    cases rules.unused? rules.referenced with
    | some name => simp [Violation.firstOr, eq_comm]
    | none => simp [Violation.firstOr]

theorem kind_of_rejected {rules : RuleSet} {violation : Violation}
    (rejected : rules.validate = .error violation) : violation.kind ≠ .malformedNode := by
  rcases rejected_iff.mp rejected with first | ⟨_, name, rfl, _⟩
  · exact kind_of_mem_bodyViolations (List.mem_of_mem_head? first)
  · simp [Violation.kind]

/-- Validation reports the first violation of the bodies. Only if there is none it reports the
first of the unused rules, and it accepts a rule set in which there is neither. -/
theorem validate_reports_first_violation (rules : RuleSet) :
    (rules.names.Pairwise fun first second => Names.octets first < Names.octets second) ∧
    (∀ violation, rules.validate = .error violation ↔
      rules.bodyViolations.head? = some violation ∨
      rules.bodyViolations = [] ∧ ∃ name, violation = .unreferencedRule name ∧
        rules.Unused name ∧
        ∀ other, rules.Unused other → other = name ∨ Names.octets name < Names.octets other) ∧
    (rules.validate = .ok rules ↔ rules.bodyViolations = [] ∧ ∀ name, ¬rules.Unused name) ∧
    ∀ detail, rules.validate ≠ .error (.malformedNode detail) := by
  refine ⟨names_octets_ascending rules, fun violation => ?_, ?_, fun detail rejected => ?_⟩
  · simp only [← Names.lt_iff_octets_lt]
    exact rejected_iff
  · rw [accepted_iff]
    simp only [true_and]
  · exact kind_of_rejected rejected rfl

end PracticeGrammar.RuleSet
