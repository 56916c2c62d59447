import Mathlib.Data.List.Basic
import PracticeGrammar.RuleSet

/-! The nodes of productions and of whole rule sets. Whatever is said of all nodes of a production
can be shown for a production from its children, in the order in which they stand. -/

namespace PracticeGrammar

namespace Production

theorem sizeOf_child_lt {production child : Production} (member : child ∈ production.children) :
    sizeOf child < sizeOf production := by
  cases production with
  | lit _ | ref _ => cases member
  | seq children | alt children =>
    have smaller := List.sizeOf_lt_of_mem (show child ∈ children from member)
    simp only [seq.sizeOf_spec, alt.sizeOf_spec]
    omega
  | opt _ _ | cond _ _ _ | span _ _ =>
    cases List.mem_singleton.mp member
    simp only [opt.sizeOf_spec, cond.sizeOf_spec, span.sizeOf_spec]
    omega

/-- What holds of a production whenever it holds of its children holds of all productions. -/
@[elab_as_elim]
theorem childInduction {motive : Production → Prop}
    (step : ∀ production, (∀ child ∈ production.children, motive child) → motive production)
    (production : Production) : motive production :=
  step production fun child _ => childInduction step child
termination_by sizeOf production
decreasing_by exact sizeOf_child_lt ‹_›

theorem mem_nodes_iff {node production : Production} :
    node ∈ production.nodes ↔ node = production ∨ ∃ child ∈ production.children, node ∈ child.nodes := by
  rw [nodes_eq_cons, List.mem_cons, List.mem_flatMap]

theorem self_mem_nodes (production : Production) : production ∈ production.nodes :=
  mem_nodes_iff.mpr (.inl rfl)

/-- Everything below a node of a production is a node of that production. -/
theorem child_mem_nodes {production node child : Production} (inside : node ∈ production.nodes)
    (member : child ∈ node.children) : child ∈ production.nodes := by
  induction production using childInduction with
  | step production ih =>
    rcases mem_nodes_iff.mp inside with rfl | ⟨top, below, inside⟩
    · exact mem_nodes_iff.mpr (.inr ⟨child, member, self_mem_nodes child⟩)
    · exact mem_nodes_iff.mpr (.inr ⟨top, below, ih top below inside⟩)

theorem referenceName_eq_some_iff {production : Production} {name : String} :
    production.referenceName = some name ↔ production = .ref name := by
  cases production <;> simp [referenceName]

theorem mem_references_iff {production : Production} {name : String} :
    name ∈ production.references ↔ .ref name ∈ production.nodes := by
  simp [references, referenceName_eq_some_iff]

/-- Collecting from the nodes of a production is collecting from its root and then from its
children. -/
theorem filterMap_nodes {α : Type} (f : Production → Option α) (production : Production) :
    production.nodes.filterMap f =
      (f production).toList ++ production.children.flatMap fun child => child.nodes.filterMap f := by
  rw [nodes_eq_cons, List.filterMap_cons, List.filterMap_flatMap]
  cases f production <;> rfl

theorem references_eq (production : Production) :
    production.references =
      production.referenceName.toList ++ production.children.flatMap references :=
  filterMap_nodes referenceName production

end Production

namespace RuleSet

/-- A node stands somewhere in the body of some rule. -/
def Holds (rules : RuleSet) (node : Production) : Prop := ∃ rule ∈ rules.entries, node ∈ rule.2.nodes

theorem holds_body {rules : RuleSet} {name : String} {body : Production}
    (member : (name, body) ∈ rules.entries) : rules.Holds body :=
  ⟨_, member, body.self_mem_nodes⟩

theorem holds_child {rules : RuleSet} {node child : Production} (held : rules.Holds node)
    (member : child ∈ node.children) : rules.Holds child := by
  obtain ⟨rule, present, inside⟩ := held
  exact ⟨rule, present, Production.child_mem_nodes inside member⟩

theorem mem_references_iff {rules : RuleSet} {name : String} :
    name ∈ rules.entries.flatMap (·.2.references) ↔ rules.Holds (.ref name) := by
  simp only [List.mem_flatMap, Production.mem_references_iff, Holds]

end RuleSet
end PracticeGrammar
