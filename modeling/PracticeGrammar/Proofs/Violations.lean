import PracticeGrammar.Proofs.NameMaps
import PracticeGrammar.Proofs.ProductionNodes
import PracticeGrammar.Validation

/-! All violations of a rule set, listed without stopping at the first. Validation reports the head
of this list and collects, on its way, the names that all references use. -/

namespace PracticeGrammar

namespace Violation

/-- The first violation found, or else a value. -/
def firstOr {α : Type} (value : α) : List Violation → Except Violation α
  | [] => .ok value
  | violation :: _ => .error violation

theorem firstOr_append {α β : Type} (middle : α) (value : β) (left right : List Violation) :
    firstOr value (left ++ right) =
      match firstOr middle left with
      | .error violation => .error violation
      | .ok _ => firstOr value right := by
  cases left <;> rfl

/-- The rule whose body is at fault. A rule that is not used is not at fault by its body. -/
def rule? : Violation → Option String
  | .emptySequence rule | .emptyAlternative rule => some rule
  | .invalidProbability _ rule | .unresolvedReference _ rule => some rule
  | .unreferencedRule _ | .malformedNode _ => none

end Violation

namespace Production
open Violation

/-- What is wrong with a node itself, whatever stands below it. -/
def flaw? (rules : RuleSet) (rule : String) : Production → Option Violation
  | .seq [] => some (.emptySequence rule)
  | .alt [] => some (.emptyAlternative rule)
  | .opt probability _ =>
    if probability.isProbability then none else some (.invalidProbability probability rule)
  | .ref name => if rules.contains name then none else some (.unresolvedReference name rule)
  | _ => none

/-- The violations of all nodes, parents first and left to right. -/
def violations (rules : RuleSet) (rule : String) (production : Production) : List Violation :=
  production.nodes.filterMap (flaw? rules rule)

theorem rule_of_flaw {rules : RuleSet} {rule : String} {node : Production} {violation : Violation}
    (flawed : node.flaw? rules rule = some violation) : violation.rule? = some rule := by
  unfold flaw? at flawed
  split at flawed
  all_goals try split at flawed
  all_goals cases flawed
  all_goals rfl

theorem violations_eq (rules : RuleSet) (rule : String) (production : Production) :
    production.violations rules rule =
      (production.flaw? rules rule).toList ++ production.children.flatMap (violations rules rule) :=
  filterMap_nodes (flaw? rules rule) production

theorem checkAll_eq {rules : RuleSet} {rule : String} {productions : List Production}
    (each : ∀ production ∈ productions, ∀ used, production.check rules rule used =
      firstOr (production.references.foldl NameSet.insert used) (production.violations rules rule))
    (used : NameSet) :
    checkAll rules rule productions used =
      firstOr ((productions.flatMap references).foldl NameSet.insert used)
        (productions.flatMap (violations rules rule)) := by
  induction productions generalizing used with
  | nil => rfl
  | cons first rest ih =>
    have rest := ih fun production member => each production (List.mem_cons_of_mem _ member)
    rw [List.flatMap_cons, List.flatMap_cons, List.foldl_append, checkAll,
      each first List.mem_cons_self,
      firstOr_append (first.references.foldl NameSet.insert used)]
    cases first.violations rules rule with
    | nil => exact rest _
    | cons violation _ => rfl

/-- Checking a body stops at its first violation, and otherwise adds all names it refers to. -/
theorem check_eq (rules : RuleSet) (rule : String) (production : Production) (used : NameSet) :
    production.check rules rule used =
      firstOr (production.references.foldl NameSet.insert used) (production.violations rules rule) := by
  induction production using childInduction generalizing used with
  | step production ih =>
    rw [violations_eq, references_eq]
    cases production with
    | lit text => rfl
    | ref name =>
      unfold check
      simp only [flaw?]
      split <;> rfl
    | seq children | alt children =>
      cases children with
      | nil => rfl
      | cons first rest => exact checkAll_eq ih used
    | opt probability child =>
      unfold check
      simp only [flaw?, children, List.flatMap_singleton]
      split
      · exact ih child (List.mem_singleton.mpr rfl) used
      · rfl
    | cond _ _ child | span _ child =>
      simp only [check, flaw?, referenceName, children, List.flatMap_singleton]
      exact ih child (List.mem_singleton.mpr rfl) used

end Production

namespace RuleSet
open Violation

/-- The violations of all bodies, in the order of the rule names. -/
def bodyViolations (rules : RuleSet) : List Violation :=
  rules.entries.flatMap fun rule => rule.2.violations rules rule.1

theorem mem_bodyViolations_iff {rules : RuleSet} {violation : Violation} :
    violation ∈ rules.bodyViolations ↔
      ∃ rule ∈ rules.entries, ∃ node ∈ rule.2.nodes, node.flaw? rules rule.1 = some violation := by
  simp only [bodyViolations, List.mem_flatMap, Production.violations, List.mem_filterMap]

theorem located_of_mem_bodyViolations {rules : RuleSet} {violation : Violation}
    (member : violation ∈ rules.bodyViolations) : ∃ rule, violation.rule? = some rule := by
  obtain ⟨rule, _, _, _, flawed⟩ := mem_bodyViolations_iff.mp member
  exact ⟨rule.1, Production.rule_of_flaw flawed⟩

/-- A rule that nothing uses and that is no entry point either. -/
def Unused (rules : RuleSet) (name : String) : Prop :=
  name ∈ rules.names ∧ name ≠ "start" ∧ ¬"start_".toList <+: name.toList ∧ ¬rules.Holds (.ref name)

theorem visit_eq (rules : RuleSet) (entries : List (String × Production)) (used : NameSet) :
    (visit rules entries used).2 =
      firstOr ((entries.flatMap (·.2.references)).foldl NameSet.insert used)
        (entries.flatMap fun rule => rule.2.violations rules rule.1) := by
  induction entries generalizing used with
  | nil => rfl
  | cons rule rest ih =>
    rw [List.flatMap_cons, List.flatMap_cons, List.foldl_append,
      firstOr_append (rule.2.references.foldl NameSet.insert used)]
    unfold visit
    rw [Production.check_eq]
    cases rule.2.violations rules rule.1 with
    | nil => exact ih _
    | cons violation _ => rfl

/-- Visiting all bodies collects exactly the names that are referred to. -/
theorem visit_entries (rules : RuleSet) :
    (visit rules rules.entries (NameSet.singleton startRule)).2 =
      firstOr rules.referenced rules.bodyViolations :=
  visit_eq rules rules.entries _

theorem holds_iff_get? {rules : RuleSet} {node : Production} :
    rules.Holds node ↔ ∃ rule body, rules.get? rule = some body ∧ node ∈ body.nodes := by
  simp only [Holds, NameMap.get?_eq_some_iff, Prod.exists]

theorem mem_referenced_iff {rules : RuleSet} {name : String} :
    name ∈ rules.referenced.names ↔ name = startRule ∨ rules.Holds (.ref name) := by
  rw [referenced, NameSet.mem_names_foldl_insert, NameSet.mem_names_singleton, mem_references_iff]

theorem isAlternateStart_iff {name : String} :
    isAlternateStart name = true ↔ "start_".toList <+: name.toList :=
  List.isPrefixOf_iff_prefix

theorem isEntryPoint_iff {name : String} :
    isEntryPoint name = true ↔ name = "start" ∨ "start_".toList <+: name.toList := by
  rw [isEntryPoint, Bool.or_eq_true, beq_iff_eq, isAlternateStart_iff, startRule]

private theorem stray_iff {rules : RuleSet} {name : String} :
    (!isAlternateStart name && !rules.referenced.contains name) = true ↔
      name ≠ "start" ∧ ¬"start_".toList <+: name.toList ∧ ¬rules.Holds (.ref name) := by
  rw [Bool.and_eq_true, Bool.not_eq_true', Bool.not_eq_true', ← Bool.not_eq_true, ← Bool.not_eq_true,
    isAlternateStart_iff, NameMap.contains_iff, mem_referenced_iff, not_or]
  exact and_left_comm

theorem unused?_eq_none_iff {rules : RuleSet} :
    rules.unused? rules.referenced = none ↔ ∀ name, ¬rules.Unused name := by
  simp only [unused?, List.find?_eq_none, stray_iff, Unused, not_and]

private theorem unused?_least {rules : RuleSet} {name : String}
    (found : rules.unused? rules.referenced = some name) :
    rules.Unused name ∧ ∀ other, rules.Unused other → other = name ∨ name < other := by
  obtain ⟨stray, before, behind, same, used⟩ := List.find?_eq_some_iff_append.mp found
  have present : name ∈ rules.names := by simp [same]
  refine ⟨⟨present, stray_iff.mp stray⟩, ?_⟩
  intro other ⟨member, otherStray⟩
  have ascending := rules.names_ascending
  rw [same] at member ascending
  rcases List.mem_append.mp member with earlier | later
  · have isUsed := used other earlier
    rw [stray_iff.mpr otherStray] at isUsed
    cases isUsed
  · rcases List.mem_cons.mp later with rfl | later
    · exact .inl rfl
    · exact .inr (List.rel_of_pairwise_cons (List.pairwise_append.mp ascending).2.1 later)

/-- The rule reported as unused is the first of them all. -/
theorem unused?_eq_some_iff {rules : RuleSet} {name : String} :
    rules.unused? rules.referenced = some name ↔
      rules.Unused name ∧ ∀ other, rules.Unused other → other = name ∨ name < other := by
  refine ⟨unused?_least, fun ⟨unused, least⟩ => ?_⟩
  cases found : rules.unused? rules.referenced with
  | none => exact absurd unused (unused?_eq_none_iff.mp found name)
  | some first =>
    obtain ⟨firstUnused, firstLeast⟩ := unused?_least found
    rcases least first firstUnused with rfl | above
    · rfl
    · rcases firstLeast name unused with rfl | below
      · rfl
      · exact absurd (String.lt_trans above below) (String.lt_irrefl _)

end RuleSet
end PracticeGrammar
