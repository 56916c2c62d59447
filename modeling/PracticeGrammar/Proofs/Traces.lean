import Mathlib.Logic.Relation
import PracticeGrammar.Proofs.Findings

/-! What validation sees of a body: its references, its empty sequences and alternatives, and its
optionals that have no probability. It sees them in reading order, and neither what else is written
in the nodes nor how they are grouped. -/

namespace PracticeGrammar

/-- What validation can see in a node: a rule that it uses, or something wrong with it. -/
inductive Feature where
  | reference (name : String)
  | emptySequence
  | emptyAlternative
  | improbable (number : Binary64)

namespace Feature

def name? : Feature → Option String
  | .reference name => some name
  | _ => none

def violation? (rules : RuleSet) (rule : String) : Feature → Option Violation
  | .reference name =>
    if rules.contains name then none else some (.unresolvedReference name rule)
  | .emptySequence => some (.emptySequence rule)
  | .emptyAlternative => some (.emptyAlternative rule)
  | .improbable number => some (.invalidProbability number rule)

end Feature

namespace Production

def feature? : Production → Option Feature
  | .ref name => some (.reference name)
  | .seq [] => some .emptySequence
  | .alt [] => some .emptyAlternative
  | .opt probability _ => if probability.isProbability then none else some (.improbable probability)
  | _ => none

/-- The features of all nodes, parents first and left to right. -/
def trace (production : Production) : List Feature := production.nodes.filterMap feature?

theorem trace_eq (production : Production) :
    production.trace = production.feature?.toList ++ production.children.flatMap trace :=
  filterMap_nodes feature? production

theorem flaw?_eq_bind (rules : RuleSet) (rule : String) (node : Production) :
    node.flaw? rules rule = node.feature?.bind (Feature.violation? rules rule) := by
  cases node with
  | lit _ | ref _ | cond _ _ _ | span _ _ => rfl
  | seq children | alt children => cases children <;> rfl
  | opt probability _ =>
    simp only [flaw?, feature?]
    split <;> rfl

theorem referenceName_eq_bind (node : Production) :
    node.referenceName = node.feature?.bind Feature.name? := by
  cases node with
  | lit _ | ref _ | cond _ _ _ | span _ _ => rfl
  | seq children | alt children => cases children <;> rfl
  | opt probability _ =>
    simp only [referenceName, feature?]
    split <;> rfl

theorem violations_eq_of_trace (rules : RuleSet) (rule : String) (production : Production) :
    production.violations rules rule = production.trace.filterMap (Feature.violation? rules rule) := by
  rw [violations, trace, List.filterMap_filterMap]
  exact List.filterMap_congr fun node _ => flaw?_eq_bind rules rule node

theorem references_eq_of_trace (production : Production) :
    production.references = production.trace.filterMap Feature.name? := by
  rw [references, trace, List.filterMap_filterMap]
  exact List.filterMap_congr fun node _ => referenceName_eq_bind node

/-- A production around a child that says nothing to validation. -/
inductive Wrapper : (Production → Production) → Prop where
  | opt {probability : Binary64} (valid : probability.isProbability = true) : Wrapper (.opt probability)
  | cond (flag : String) (inverted : Bool) : Wrapper (.cond flag inverted)
  | span (label : String) : Wrapper (.span label)

inductive Group : (List Production → Production) → Prop where
  | seq : Group .seq
  | alt : Group .alt

/-- One place below the root of a production, to be filled in. -/
inductive Place : (Production → Production) → Prop where
  | opt (probability : Binary64) : Place (.opt probability)
  | cond (flag : String) (inverted : Bool) : Place (.cond flag inverted)
  | span (label : String) : Place (.span label)
  | member {group : List Production → Production} (kind : Group group) (before after : List Production) :
      Place fun child => group (before ++ child :: after)

/-- One change that leaves all features as they are, anywhere in a production. -/
inductive Rewording : Production → Production → Prop where
  | text (old new : String) : Rewording (.lit old) (.lit new)
  | payload {old new : Production → Production} (first : Wrapper old) (second : Wrapper new)
      (child : Production) : Rewording (old child) (new child)
  | wrap {wrapper : Production → Production} (kind : Wrapper wrapper) (child : Production) :
      Rewording child (wrapper child)
  | single {group : List Production → Production} (kind : Group group) (child : Production) :
      Rewording child (group [child])
  | exchange {old new : List Production → Production} (first : Group old) (second : Group new)
      {children : List Production} (nonempty : children ≠ []) : Rewording (old children) (new children)
  | flatten {outer inner : List Production → Production} (first : Group outer) (second : Group inner)
      {children : List Production} (nonempty : children ≠ []) (before after : List Production) :
      Rewording (outer (before ++ inner children :: after)) (outer (before ++ children ++ after))
  | inside {place : Production → Production} (kind : Place place) {old new : Production}
      (change : Rewording old new) : Rewording (place old) (place new)

/-- Any number of changes, made or taken back. -/
def Reworded : Production → Production → Prop := Relation.EqvGen Rewording

theorem Wrapper.trace_eq {wrapper : Production → Production} (kind : Wrapper wrapper)
    (child : Production) : (wrapper child).trace = child.trace := by
  rw [Production.trace_eq]
  cases kind with
  | opt valid => simp [feature?, children, valid]
  | cond _ _ | span _ => simp [feature?, children]

theorem Group.trace_eq {group : List Production → Production} (kind : Group group)
    {members : List Production} (nonempty : members ≠ []) :
    (group members).trace = members.flatMap trace := by
  obtain ⟨first, rest, rfl⟩ := List.exists_cons_of_ne_nil nonempty
  cases kind <;> exact Production.trace_eq _

/-- What is put at a place leaves its own features there and touches no others. -/
theorem Place.trace_eq {place : Production → Production} (kind : Place place) :
    ∃ before after, ∀ child, (place child).trace = before ++ child.trace ++ after := by
  cases kind with
  | opt probability =>
    refine ⟨(feature? (.opt probability (.lit ""))).toList, [], fun child => ?_⟩
    rw [Production.trace_eq]
    simp [feature?, children]
  | cond _ _ | span _ =>
    refine ⟨[], [], fun child => ?_⟩
    rw [Production.trace_eq]
    simp [feature?, children]
  | member kind before after =>
    refine ⟨before.flatMap trace, after.flatMap trace, fun child => ?_⟩
    rw [kind.trace_eq (by simp)]
    simp

theorem Rewording.trace_eq {old new : Production} (change : Rewording old new) :
    old.trace = new.trace := by
  induction change with
  | text old new => rfl
  | payload first second child => rw [first.trace_eq, second.trace_eq]
  | wrap kind child => rw [kind.trace_eq]
  | single kind child => rw [kind.trace_eq (by simp), List.flatMap_singleton]
  | exchange first second nonempty => rw [first.trace_eq nonempty, second.trace_eq nonempty]
  | flatten first second nonempty before after =>
    rw [first.trace_eq (by simp), first.trace_eq (by simp [nonempty])]
    simp [second.trace_eq nonempty]
  | inside kind _ ih =>
    obtain ⟨before, after, around⟩ := kind.trace_eq
    rw [around, around, ih]

theorem Reworded.trace_eq {old new : Production} (changes : Reworded old new) :
    old.trace = new.trace := by
  induction changes with
  | rel _ _ change => exact change.trace_eq
  | refl _ => rfl
  | symm _ _ _ ih => exact ih.symm
  | trans _ _ _ _ _ first second => exact first.trans second

end Production

namespace RuleSet

/-- The same names, with related bodies. -/
def Bodywise (related : Production → Production → Prop) (left right : RuleSet) : Prop :=
  ∀ name, Option.Rel related (left.get? name) (right.get? name)

variable {left right : RuleSet}

theorem Bodywise.mono {related weaker : Production → Production → Prop}
    (same : Bodywise related left right) (each : ∀ one other, related one other → weaker one other) :
    Bodywise weaker left right := by
  intro name
  have bodies := same name
  generalize left.get? name = one, right.get? name = other at bodies
  cases bodies with
  | none => exact .none
  | some bodies => exact .some (each _ _ bodies)

theorem Bodywise.traces (same : Bodywise (fun one other => one.trace = other.trace) left right)
    (name : String) :
    (left.get? name).map Production.trace = (right.get? name).map Production.trace := by
  have bodies := same name
  generalize left.get? name = one, right.get? name = other at bodies
  cases bodies with
  | none => rfl
  | some bodies => exact congrArg some bodies

theorem names_of_traces
    (same : ∀ name, (left.get? name).map Production.trace = (right.get? name).map Production.trace) :
    left.names = right.names := by
  apply NameMap.names_eq_of_mem_iff
  intro name
  rw [NameMap.mem_names_iff_isSome, NameMap.mem_names_iff_isSome, ← Option.isSome_map, same,
    Option.isSome_map]

/-- Each rule name with the trace of its body. -/
def traces (rules : RuleSet) : List (String × List Feature) :=
  rules.entries.map fun rule => (rule.1, rule.2.trace)

theorem traces_eq (rules : RuleSet) : rules.traces =
    rules.names.filterMap fun name => ((rules.get? name).map Production.trace).map (name, ·) := by
  rw [traces, NameMap.entries_eq, List.map_filterMap]
  simp only [Option.map_map, Function.comp_def]

theorem findings_of_traces (names : left.names = right.names) (traces : left.traces = right.traces) :
    left.findings = right.findings := by
  have known := NameMap.contains_eq_of_names names
  have features : Feature.violation? left = Feature.violation? right := by
    funext rule feature
    cases feature <;> simp only [Feature.violation?, known]
  have found (rules : RuleSet) : rules.findings = rules.traces.map fun rule =>
      (rule.1, rule.2.filterMap (Feature.violation? rules rule.1)) := by
    simp only [findings, RuleSet.traces, List.map_map, Production.violations_eq_of_trace]
    rfl
  rw [found, found right, traces, features]

theorem referenced_of_traces (traces : left.traces = right.traces) :
    left.referenced = right.referenced := by
  have used (rules : RuleSet) : (rules.entries.flatMap fun rule => rule.2.references) =
      rules.traces.flatMap fun rule => rule.2.filterMap Feature.name? := by
    simp only [RuleSet.traces, List.flatMap_map, Production.references_eq_of_trace]
  rw [referenced, referenced, used, used right, traces]

/-- Nothing but the traces of its bodies is seen of a rule set. -/
theorem Bodywise.validatedAlike
    (same : Bodywise (fun one other => one.trace = other.trace) left right) :
    left.ValidatedAlike right := by
  have names := names_of_traces same.traces
  have traces : left.traces = right.traces := by
    rw [traces_eq, traces_eq, names]
    simp only [same.traces]
  exact validatedAlike_of_findings (findings_of_traces names traces) (referenced_of_traces traces)

/-- Rule sets whose bodies have the same traces, name by name, are validated alike. So are rule sets
whose bodies differ in texts, flags, labels and probabilities, in wrappers, or in how their nodes are
grouped. -/
theorem validation_sees_only_traces (left right : RuleSet) :
    (Bodywise (fun one other => one.trace = other.trace) left right → left.ValidatedAlike right) ∧
    (Bodywise Production.Reworded left right → left.ValidatedAlike right) := by
  constructor
  · intro same
    exact same.validatedAlike
  · intro same
    exact (same.mono fun _ _ changes => changes.trace_eq).validatedAlike

/-- A greeting in two groups, with a name that is still to be filled in. -/
def grouped : RuleSet where
  entries := [("name", .alt []), ("start", .seq [.seq [.lit "hi ", .ref "name"], .lit "!"])]
  ascending := by unfold Entries.Ascending; decide

/-- One of the parts alone instead of the whole greeting, and the name left out half of the time. -/
def ungrouped : RuleSet where
  entries := [("name", .span "noun" (.alt [])),
    ("start", .alt [.lit "hi ", .opt ⟨0x3fe0000000000000⟩ (.ref "name"), .lit "!"])]
  ascending := by unfold Entries.Ascending; decide

/-- These grammars make different texts, but they have the same fault. -/
theorem grouping_is_not_seen :
    Bodywise (fun one other => one.trace = other.trace) grouped ungrouped ∧
    Bodywise Production.Reworded grouped ungrouped ∧ grouped.ValidatedAlike ungrouped ∧
    ungrouped.validate = .error (.emptyAlternative "name") := by
  have name : Production.Reworded (.alt []) (.span "noun" (.alt [])) :=
    .rel _ _ (.wrap (.span "noun") _)
  have flat : Production.Reworded (.seq [.seq [.lit "hi ", .ref "name"], .lit "!"])
      (.seq [.lit "hi ", .ref "name", .lit "!"]) :=
    .rel _ _ (.flatten .seq .seq (by simp) [] [.lit "!"])
  have exchanged : Production.Reworded (.seq [.lit "hi ", .ref "name", .lit "!"])
      (.alt [.lit "hi ", .ref "name", .lit "!"]) :=
    .rel _ _ (.exchange .seq .alt (by simp))
  have optional : Production.Reworded (.alt [.lit "hi ", .ref "name", .lit "!"])
      (.alt [.lit "hi ", .opt ⟨0x3fe0000000000000⟩ (.ref "name"), .lit "!"]) :=
    .rel _ _ (.inside (.member .alt [.lit "hi "] [.lit "!"]) (.wrap (.opt rfl) _))
  have reworded : Bodywise Production.Reworded grouped ungrouped := by
    intro rule
    by_cases first : "name" = rule
    · subst first
      exact .some name
    · by_cases second : "start" = rule
      · subst second
        exact .some ((flat.trans _ _ _ exchanged).trans _ _ _ optional)
      · simp [NameMap.get?, Entries.get?, grouped, ungrouped, first, second]
  have traces := reworded.mono fun _ _ changes => changes.trace_eq
  exact ⟨traces, reworded, (validation_sees_only_traces grouped ungrouped).2 reworded, rfl⟩

end RuleSet
end PracticeGrammar
