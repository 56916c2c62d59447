import Mathlib.Data.List.Find
import Mathlib.Data.List.Nodup
import PracticeGrammar.Proofs.FirstViolation

/-! Renaming the rules of a grammar. As long as different names stay different and entry points stay
entry points, what is valid stays valid. If the order of the names stays the same too, then all that
validation says is what it said before, in the new names. -/

namespace PracticeGrammar

namespace Production

mutual
/-- Gives the references in a production new names. -/
def rename (new : String → String) : Production → Production
  | .lit text => .lit text
  | .ref name => .ref (new name)
  | .seq children => .seq (renameAll new children)
  | .alt children => .alt (renameAll new children)
  | .opt probability child => .opt probability (rename new child)
  | .cond flag inverted child => .cond flag inverted (rename new child)
  | .span label child => .span label (rename new child)

def renameAll (new : String → String) : List Production → List Production
  | [] => []
  | first :: rest => rename new first :: renameAll new rest
end

theorem renameAll_eq_map (new : String → String) (productions : List Production) :
    renameAll new productions = productions.map (rename new) := by
  induction productions with
  | nil => rfl
  | cons first rest ih => rw [renameAll, ih, List.map_cons]

theorem children_rename (new : String → String) (production : Production) :
    (production.rename new).children = production.children.map (rename new) := by
  cases production with
  | seq _ | alt _ => simp [rename, children, renameAll_eq_map]
  | lit _ | ref _ | opt _ _ | cond _ _ _ | span _ _ => simp [rename, children]

theorem nodes_rename (new : String → String) (production : Production) :
    (production.rename new).nodes = production.nodes.map (rename new) := by
  induction production using childInduction with
  | step production ih =>
    rw [nodes_eq_cons, nodes_eq_cons production, children_rename, List.flatMap_map, List.map_cons,
      List.map_flatMap]
    exact congrArg _ (List.flatMap_congr ih)

theorem rename_eq_ref_iff {new : String → String} {production : Production} {name : String} :
    production.rename new = .ref name ↔ ∃ target, production = .ref target ∧ new target = name := by
  cases production <;> simp [rename]

end Production

def Violation.rename (new : String → String) : Violation → Violation
  | .emptySequence rule => .emptySequence (new rule)
  | .emptyAlternative rule => .emptyAlternative (new rule)
  | .invalidProbability probability rule => .invalidProbability probability (new rule)
  | .unresolvedReference name rule => .unresolvedReference (new name) (new rule)
  | .unreferencedRule name => .unreferencedRule (new name)
  | .malformedNode detail => .malformedNode detail

def Notice.rename (new : String → String) : Notice → Notice
  | .fileRead octets path => .fileRead octets path
  | .visiting rule => .visiting (new rule)
  | .validated rules referenced => .validated rules referenced

def Audit.rename (new : String → String) (audit : Audit) : Audit :=
  ⟨audit.notices.map (Notice.rename new), audit.verdict.mapError (Violation.rename new)⟩

namespace Findings

def rename (new : String → String) (found : Findings) : Findings :=
  found.map fun rule => (new rule.1, rule.2.map (Violation.rename new))

theorem visited_rename (new : String → String) (found : Findings) :
    (found.rename new).visited = found.visited.map new := by
  induction found with
  | nil => rfl
  | cons rule rest ih =>
    obtain ⟨name, violations⟩ := rule
    cases violations with
    | nil => exact congrArg _ ih
    | cons violation _ => rfl

theorem violations_rename (new : String → String) (found : Findings) :
    (found.rename new).violations = found.violations.map (Violation.rename new) := by
  rw [rename, violations, violations, List.flatMap_map, List.map_flatMap]

theorem verdict_rename {new : String → String} {found : Findings} {used renamed : NameSet}
    (unused : (found.rename new).unused? renamed = (found.unused? used).map new) :
    (found.rename new).verdict renamed = (found.verdict used).mapError (Violation.rename new) := by
  rw [verdict, verdict, violations_rename, unused]
  cases found.violations with
  | cons violation _ => rfl
  | nil => cases found.unused? used <;> rfl

theorem audit_rename {new : String → String} {found : Findings} {used renamed : NameSet}
    (unused : (found.rename new).unused? renamed = (found.unused? used).map new)
    (size : renamed.size = used.size) :
    (found.rename new).audit renamed = (found.audit used).rename new := by
  have length : (found.rename new).length = found.length := List.length_map _
  have closing : (found.rename new).closing renamed =
      (found.closing used).map (Notice.rename new) := by
    rw [closing, closing, verdict_rename unused, length, size]
    cases found.verdict used <;> rfl
  rw [audit, audit, Audit.rename, visited_rename, verdict_rename unused, closing, List.map_append,
    List.map_map, List.map_map]
  rfl

end Findings

namespace RuleSet

def rename (new : String → String) (rules : RuleSet) : RuleSet :=
  .ofList (rules.entries.map fun rule => (new rule.1, rule.2.rename new))

/-- The names of the rules, the names that are referred to, and `start`. -/
def Mentions (rules : RuleSet) (name : String) : Prop :=
  name ∈ rules.names ∨ name ∈ rules.referenced.names

/-- The new names differ where the old ones do, and they are entry points where the old ones are. -/
structure Faithful (rules : RuleSet) (new : String → String) : Prop where
  injective : ∀ one other, rules.Mentions one → rules.Mentions other → new one = new other → one = other
  start : new "start" = "start"
  entryPoints : ∀ name, rules.Mentions name → isEntryPoint (new name) = isEntryPoint name

variable {rules : RuleSet} {new : String → String}

theorem mentions_of_holds {name : String} (held : rules.Holds (.ref name)) : rules.Mentions name :=
  .inr (mem_referenced_iff.mpr (.inr held))

theorem mentions_start : rules.Mentions "start" := .inr (mem_referenced_iff.mpr (.inl rfl))

namespace Faithful

theorem entries_perm (faithful : rules.Faithful new) : (rules.rename new).entries.Perm
    (rules.entries.map fun rule => (new rule.1, rule.2.rename new)) := by
  apply NameMap.ofList_perm
  have distinct : (rules.names.map new).Nodup := by
    refine List.Nodup.map_on ?_ rules.names_distinct
    intro one first other second
    exact faithful.injective one other (.inl first) (.inl second)
  rw [NameMap.names, List.map_map] at distinct
  rwa [List.map_map]

theorem mem_names (faithful : rules.Faithful new) {name : String} :
    name ∈ (rules.rename new).names ↔ ∃ old ∈ rules.names, new old = name := by
  rw [NameMap.names, (faithful.entries_perm.map _).mem_iff, NameMap.names]
  simp

theorem holds (faithful : rules.Faithful new) {node : Production} :
    (rules.rename new).Holds node ↔ ∃ old, rules.Holds old ∧ old.rename new = node := by
  simp only [Holds, faithful.entries_perm.mem_iff, List.mem_map, exists_exists_and_eq_and,
    Production.nodes_rename]
  constructor
  · rintro ⟨rule, member, old, inside, same⟩
    exact ⟨old, ⟨rule, member, inside⟩, same⟩
  · rintro ⟨old, ⟨rule, member, inside⟩, same⟩
    exact ⟨rule, member, old, inside, same⟩

theorem mem_referenced (faithful : rules.Faithful new) {name : String} :
    name ∈ (rules.rename new).referenced.names ↔ ∃ old ∈ rules.referenced.names, new old = name := by
  simp only [mem_referenced_iff, faithful.holds, Production.rename_eq_ref_iff]
  constructor
  · rintro (rfl | ⟨old, held, target, rfl, same⟩)
    · exact ⟨startRule, .inl rfl, faithful.start⟩
    · exact ⟨target, .inr held, same⟩
  · rintro ⟨old, rfl | held, rfl⟩
    · exact .inl faithful.start
    · exact .inr ⟨.ref old, held, old, rfl, rfl⟩

theorem contains_eq (faithful : rules.Faithful new) {name : String} (mentioned : rules.Mentions name) :
    (rules.rename new).contains (new name) = rules.contains name := by
  rw [Bool.eq_iff_iff, NameMap.contains_iff, NameMap.contains_iff, faithful.mem_names]
  constructor
  · rintro ⟨old, present, same⟩
    exact faithful.injective old name (.inl present) mentioned same ▸ present
  · exact fun present => ⟨name, present, rfl⟩

theorem referenced_contains_eq (faithful : rules.Faithful new) {name : String}
    (mentioned : rules.Mentions name) :
    (rules.rename new).referenced.contains (new name) = rules.referenced.contains name := by
  rw [Bool.eq_iff_iff, NameMap.contains_iff, NameMap.contains_iff, faithful.mem_referenced]
  constructor
  · rintro ⟨old, used, same⟩
    exact faithful.injective old name (.inr used) mentioned same ▸ used
  · exact fun used => ⟨name, used, rfl⟩

theorem flaw?_eq (faithful : rules.Faithful new) (rule : String) {node : Production}
    (held : rules.Holds node) : (node.rename new).flaw? (rules.rename new) (new rule) =
      (node.flaw? rules rule).map (Violation.rename new) := by
  cases node with
  | lit _ | cond _ _ _ | span _ _ => rfl
  | seq children | alt children => cases children <;> rfl
  | opt probability child =>
    simp only [Production.rename, Production.flaw?]
    split <;> rfl
  | ref name =>
    simp only [Production.rename, Production.flaw?, faithful.contains_eq (mentions_of_holds held)]
    split <;> rfl

theorem violations_eq (faithful : rules.Faithful new) {rule : String × Production}
    (member : rule ∈ rules.entries) :
    (rule.2.rename new).violations (rules.rename new) (new rule.1) =
      (rule.2.violations rules rule.1).map (Violation.rename new) := by
  rw [Production.violations, Production.violations, Production.nodes_rename, List.filterMap_map,
    List.map_filterMap]
  apply List.filterMap_congr
  intro node inside
  exact faithful.flaw?_eq rule.1 ⟨rule, member, inside⟩

/-- What is found in the bodies is the same, though it may come in another order. -/
theorem findings_perm (faithful : rules.Faithful new) :
    (rules.rename new).findings.Perm (rules.findings.rename new) := by
  have found := faithful.entries_perm.map fun rule =>
    (rule.1, rule.2.violations (rules.rename new) rule.1)
  have same : (rules.entries.map fun rule => (new rule.1, rule.2.rename new)).map
      (fun rule => (rule.1, rule.2.violations (rules.rename new) rule.1)) =
        rules.findings.rename new := by
    rw [findings, Findings.rename, List.map_map, List.map_map]
    apply List.map_congr_left
    intro rule member
    exact Prod.ext rfl (faithful.violations_eq member)
  exact same ▸ found

/-- Only `start` and the alternate starts need no use, and they are kept apart from all others. -/
theorem stray_eq (faithful : rules.Faithful new) {name : String} (mentioned : rules.Mentions name) :
    (!isAlternateStart (new name) && !(rules.rename new).referenced.contains (new name)) =
      (!isAlternateStart name && !rules.referenced.contains name) := by
  rw [faithful.referenced_contains_eq mentioned]
  by_cases start : name = "start"
  · have used : rules.referenced.contains name = true :=
      NameMap.contains_iff.mpr (mem_referenced_iff.mpr (.inl start))
    rw [used, Bool.not_true, Bool.and_false, Bool.and_false]
  · have other : new name ≠ "start" := by
      intro same
      exact start (faithful.injective name "start" mentioned mentions_start (same.trans faithful.start.symm))
    have entry := faithful.entryPoints name mentioned
    simp only [isEntryPoint, startRule, beq_eq_false_iff_ne.mpr start, beq_eq_false_iff_ne.mpr other,
      Bool.false_or] at entry
    rw [entry]

theorem accepted_iff (faithful : rules.Faithful new) :
    (rules.rename new).validate = .ok (rules.rename new) ↔ rules.validate = .ok rules := by
  have clean : (rules.rename new).bodyViolations = [] ↔ rules.bodyViolations = [] := by
    rw [← violations_findings, ← violations_findings, Findings.violations, List.flatMap_eq_nil_iff,
      ← List.map_eq_nil_iff (f := Violation.rename new), ← Findings.violations_rename,
      Findings.violations, List.flatMap_eq_nil_iff]
    simp only [faithful.findings_perm.mem_iff]
  have unused : (rules.rename new).unused? (rules.rename new).referenced = none ↔
      rules.unused? rules.referenced = none := by
    simp only [unused?, List.find?_eq_none, faithful.mem_names, forall_exists_index, and_imp,
      forall_apply_eq_imp_iff₂]
    refine forall₂_congr fun name present => ?_
    rw [faithful.stray_eq (.inl present)]
  rw [RuleSet.accepted_iff, RuleSet.accepted_iff, clean, ← unused?_eq_none_iff, unused,
    ← unused?_eq_none_iff]
  simp only [true_and]

theorem size_referenced (faithful : rules.Faithful new) :
    (rules.rename new).referenced.size = rules.referenced.size := by
  have distinct : (rules.referenced.names.map new).Nodup := by
    refine List.Nodup.map_on ?_ rules.referenced.names_distinct
    intro one first other second
    exact faithful.injective one other (.inr first) (.inr second)
  have same : (rules.rename new).referenced.names.Perm (rules.referenced.names.map new) := by
    rw [List.perm_ext_iff_of_nodup (rules.rename new).referenced.names_distinct distinct]
    intro name
    rw [faithful.mem_referenced, List.mem_map]
  simpa [NameMap.size, NameMap.names] using same.length_eq

theorem unused?_eq (faithful : rules.Faithful new) :
    (rules.findings.rename new).unused? (rules.rename new).referenced =
      (rules.findings.unused? rules.referenced).map new := by
  have names : (rules.findings.rename new).map (·.1) = rules.names.map new := by
    rw [Findings.rename, List.map_map, ← names_findings, List.map_map]
    rfl
  rw [Findings.unused?, Findings.unused?, names, names_findings, List.find?_map]
  refine congrArg _ (List.find?_congr fun name present => ?_)
  exact faithful.stray_eq (.inl present)

section Increasing
variable (increasing : ∀ one other, rules.Mentions one → rules.Mentions other → one < other →
  new one < new other)
include increasing

theorem findings_eq (faithful : rules.Faithful new) :
    (rules.rename new).findings = rules.findings.rename new := by
  have ascending (rules : RuleSet) : rules.findings.Pairwise (·.1 < ·.1) := by
    rw [← List.pairwise_map, names_findings]
    exact rules.names_ascending
  have renamed : (rules.findings.rename new).Pairwise (·.1 < ·.1) := by
    rw [Findings.rename, List.pairwise_map]
    refine (ascending rules).imp_of_mem ?_
    intro one other first second below
    refine increasing _ _ (.inl ?_) (.inl ?_) below <;> rw [← names_findings]
    · exact List.mem_map_of_mem first
    · exact List.mem_map_of_mem second
  refine faithful.findings_perm.eq_of_pairwise ?_ (ascending _) renamed
  intro one other _ _ below above
  exact absurd (String.lt_trans below above) (String.lt_irrefl _)

/-- A renaming that keeps the order of the names changes the names in the audit and nothing else. -/
theorem audit_eq (faithful : rules.Faithful new) :
    (rules.rename new).audit = rules.audit.rename new := by
  rw [RuleSet.audit_eq, RuleSet.audit_eq, faithful.findings_eq increasing]
  exact Findings.audit_rename faithful.unused?_eq faithful.size_referenced

end Increasing
end Faithful

/-- A renaming that keeps names apart and entry points as they are keeps valid rule sets valid and
others not, and it is followed by the names that are referred to. If it also keeps the order of the
octets of the names, the violation and the notices are the old ones in the new names. -/
theorem renaming_commutes_with_validation (faithful : rules.Faithful new) :
    ((rules.rename new).validate = .ok (rules.rename new) ↔ rules.validate = .ok rules) ∧
    (∀ name, name ∈ (rules.rename new).referenced.names ↔
      ∃ old ∈ rules.referenced.names, new old = name) ∧
    ((∀ one other, rules.Mentions one → rules.Mentions other →
        Names.octets one < Names.octets other → Names.octets (new one) < Names.octets (new other)) →
      (∀ violation, (rules.rename new).validate = .error violation ↔
        ∃ old, rules.validate = .error old ∧ old.rename new = violation) ∧
      (rules.rename new).audit.notices = rules.audit.notices.map (Notice.rename new)) := by
  refine ⟨faithful.accepted_iff, fun _ => faithful.mem_referenced, fun increasing => ?_⟩
  simp only [← Names.lt_iff_octets_lt] at increasing
  have audit := faithful.audit_eq increasing
  refine ⟨fun violation => ?_, ?_⟩
  · rw [validate, validate, audit, Audit.rename]
    cases rules.audit.verdict <;> simp [Except.map, Except.mapError]
  · rw [audit, Audit.rename]

/-- A toast, which is not raised to anyone. -/
def toast : RuleSet where
  entries := [("drink", .lit "cheers"), ("start", .seq [.ref "drink", .ref "guest"])]
  ascending := by unfold Entries.Ascending; decide

/-- The names of the toast with a sign in front, except that it starts where it did. -/
def marked (name : String) : String := if name = "start" then name else "#" ++ name

/-- The missing guest is missing under the new name too. -/
theorem marked_toast_is_rejected :
    toast.Faithful marked ∧
    toast.validate = .error (.unresolvedReference "guest" "start") ∧
    (toast.rename marked).validate = .error (.unresolvedReference "#guest" "start") ∧
    (toast.rename marked).audit.notices = [.visiting "#drink", .visiting "start"] := by
  have mentioned (name : String) (mentions : toast.Mentions name) :
      name ∈ ["drink", "guest", "start"] := by
    have rules : toast.names = ["drink", "start"] := rfl
    have referenced : toast.referenced.names = ["drink", "guest", "start"] := rfl
    rw [Mentions, rules, referenced] at mentions
    simp only [List.mem_cons] at mentions ⊢
    tauto
  have faithful : toast.Faithful marked := by
    refine ⟨fun one other first second => ?_, rfl, fun name mentions => ?_⟩
    · have apart : ∀ one ∈ ["drink", "guest", "start"], ∀ other ∈ ["drink", "guest", "start"],
          marked one = marked other → one = other := by decide
      exact apart one (mentioned one first) other (mentioned other second)
    · have entries : ∀ name ∈ ["drink", "guest", "start"],
          isEntryPoint (marked name) = isEntryPoint name := by decide
      exact entries name (mentioned name mentions)
  have increasing (one other : String) (first : toast.Mentions one) (second : toast.Mentions other)
      (below : Names.octets one < Names.octets other) :
      Names.octets (marked one) < Names.octets (marked other) := by
    rw [← Names.lt_iff_octets_lt] at below ⊢
    have ordered : ∀ one ∈ ["drink", "guest", "start"], ∀ other ∈ ["drink", "guest", "start"],
        one < other → marked one < marked other := by decide
    exact ordered one (mentioned one first) other (mentioned other second) below
  have rejected : toast.validate = .error (.unresolvedReference "guest" "start") := rfl
  obtain ⟨violations, notices⟩ := (renaming_commutes_with_validation faithful).2.2 increasing
  exact ⟨faithful, rejected, (violations _).mpr ⟨_, rejected, rfl⟩, notices⟩

end RuleSet
end PracticeGrammar
