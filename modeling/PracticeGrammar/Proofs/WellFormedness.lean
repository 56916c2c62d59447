import PracticeGrammar.Proofs.Findings

/-! What a valid rule set is, said of its nodes and names alone. Validation accepts exactly the
rule sets of this kind, so whoever walks a valid one has nothing left to check. -/

namespace PracticeGrammar

namespace Production

/-- Nothing is wrong with the node itself. -/
def Sound (rules : RuleSet) : Production → Prop
  | .seq children | .alt children => children ≠ []
  | .opt probability _ =>
    probability.isNaN = false ∧ Binary64.zero.atMost probability = true ∧
      probability.atMost .one = true
  | .ref name => name ∈ rules.names
  | .lit _ | .cond _ _ _ | .span _ _ => True

theorem isProbability_iff_atMost {number : Binary64} :
    number.isProbability = true ↔
      number.isNaN = false ∧ Binary64.zero.atMost number = true ∧ number.atMost .one = true := by
  simp only [Binary64.isProbability, Binary64.atMost, Bool.and_eq_true, Bool.not_eq_true']
  tauto

theorem flaw?_eq_none_iff {rules : RuleSet} {rule : String} {node : Production} :
    node.flaw? rules rule = none ↔ node.Sound rules := by
  cases node with
  | lit _ | cond _ _ _ | span _ _ => simp [flaw?, Sound]
  | seq children | alt children => cases children <;> simp [flaw?, Sound]
  | opt probability _ =>
    rw [Sound, ← isProbability_iff_atMost]
    simp [flaw?]
  | ref name =>
    rw [Sound, ← NameMap.contains_iff]
    simp [flaw?]

theorem violations_eq_nil_iff {rules : RuleSet} {rule : String} {production : Production} :
    production.violations rules rule = [] ↔ ∀ node ∈ production.nodes, node.Sound rules := by
  simp only [violations, List.filterMap_eq_nil_iff, flaw?_eq_none_iff]

/-- A node is sound among other rules if these have what it refers to. -/
theorem Sound.mono {rules others : RuleSet} {node : Production} (sound : node.Sound rules)
    (more : ∀ name, node = .ref name → name ∈ rules.names → name ∈ others.names) :
    node.Sound others := by
  cases node with
  | lit _ | cond _ _ _ | span _ _ => trivial
  | seq _ | alt _ | opt _ _ => exact sound
  | ref name => exact more name rfl sound

end Production

namespace RuleSet

/-- The conditions on a rule set under which it can be used for generation. -/
structure WellFormed (rules : RuleSet) : Prop where
  sequences : ∀ children, rules.Holds (.seq children) → children ≠ []
  alternatives : ∀ children, rules.Holds (.alt children) → children ≠ []
  probabilities : ∀ probability child, rules.Holds (.opt probability child) →
    probability.isNaN = false ∧ Binary64.zero.atMost probability = true ∧
      probability.atMost .one = true
  references : ∀ name, rules.Holds (.ref name) → name ∈ rules.names
  usage : ∀ name ∈ rules.names,
    name = "start" ∨ "start_".toList <+: name.toList ∨ rules.Holds (.ref name)

theorem WellFormed.sound {rules : RuleSet} (wellFormed : rules.WellFormed) {node : Production}
    (held : rules.Holds node) : node.Sound rules := by
  cases node with
  | lit _ | cond _ _ _ | span _ _ => trivial
  | seq children => exact wellFormed.sequences children held
  | alt children => exact wellFormed.alternatives children held
  | opt probability child => exact wellFormed.probabilities probability child held
  | ref name => exact wellFormed.references name held

theorem bodyViolations_eq_nil_iff {rules : RuleSet} :
    rules.bodyViolations = [] ↔ ∀ node, rules.Holds node → node.Sound rules := by
  simp only [bodyViolations, List.flatMap_eq_nil_iff, Production.violations_eq_nil_iff, Holds]
  constructor
  · rintro each node ⟨rule, member, inside⟩
    exact each rule member node inside
  · intro each rule member node inside
    exact each node ⟨rule, member, inside⟩

theorem no_unused_iff {rules : RuleSet} :
    (∀ name, ¬rules.Unused name) ↔ ∀ name ∈ rules.names,
      name = "start" ∨ "start_".toList <+: name.toList ∨ rules.Holds (.ref name) := by
  refine forall_congr' fun name => ?_
  simp only [Unused]
  tauto

theorem wellFormed_iff {rules : RuleSet} :
    rules.WellFormed ↔ rules.bodyViolations = [] ∧ ∀ name, ¬rules.Unused name := by
  rw [bodyViolations_eq_nil_iff, no_unused_iff]
  constructor
  · exact fun wellFormed => ⟨fun _ held => wellFormed.sound held, wellFormed.usage⟩
  · exact fun ⟨sound, usage⟩ => ⟨fun _ held => sound _ held, fun _ held => sound _ held,
      fun _ _ held => sound _ held, fun _ held => sound _ held, usage⟩

theorem accepted_iff {rules result : RuleSet} :
    rules.validate = .ok result ↔
      result = rules ∧ rules.bodyViolations = [] ∧ ∀ name, ¬rules.Unused name := by
  rw [validate_eq, ← unused?_eq_none_iff]
  cases rules.bodyViolations with
  | cons violation _ => simp [Violation.firstOr]
  | nil =>
    cases rules.unused? rules.referenced with
    | some name => simp [Violation.firstOr]
    | none => simp [Violation.firstOr, eq_comm]

/-- In a rule set that was accepted, nothing is wrong with any node. -/
theorem sound_of_accepted {rules result : RuleSet} (accepted : rules.validate = .ok result)
    {node : Production} (held : rules.Holds node) : node.Sound rules := by
  obtain ⟨_, clean, _⟩ := accepted_iff.mp accepted
  exact bodyViolations_eq_nil_iff.mp clean node held

/-- Validation is sound and complete, and gives back the rule set that it was given. -/
theorem validate_eq_ok_iff_wellFormed (rules result : RuleSet) :
    rules.validate = .ok result ↔ result = rules ∧ rules.WellFormed := by
  rw [accepted_iff, wellFormed_iff]

end RuleSet
end PracticeGrammar
