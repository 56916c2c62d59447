import PracticeGrammar.Proofs.NameOrder
import PracticeGrammar.Proofs.Tables
import PracticeGrammar.Proofs.Violations

/-! Rules kept in a table, where they are met in no particular order. What is said about them does
not show this order, nor how the table came to be filled: names are sorted before anything else is
done with them, and where they are not, only a set is collected. -/

namespace PracticeGrammar

namespace Production

mutual
/-- Checks one body against the names that are known as rules. -/
def checkKnown (known : String → Bool) (rule : String) :
    Production → NameSet → Except Violation NameSet
  | .lit _, used => .ok used
  | .ref name, used =>
    if known name then .ok (used.insert name) else .error (.unresolvedReference name rule)
  | .seq children, used =>
    if children.isEmpty then .error (.emptySequence rule) else checkAllKnown known rule children used
  | .alt children, used =>
    if children.isEmpty then .error (.emptyAlternative rule)
    else checkAllKnown known rule children used
  | .opt probability child, used =>
    if probability.isProbability then checkKnown known rule child used
    else .error (.invalidProbability probability rule)
  | .cond _ _ child, used => checkKnown known rule child used
  | .span _ child, used => checkKnown known rule child used

def checkAllKnown (known : String → Bool) (rule : String) :
    List Production → NameSet → Except Violation NameSet
  | [], used => .ok used
  | first :: rest, used =>
    match checkKnown known rule first used with
    | .error violation => .error violation
    | .ok used => checkAllKnown known rule rest used
end

mutual
theorem check_eq_checkKnown (rules : RuleSet) (rule : String) (production : Production)
    (used : NameSet) :
    production.check rules rule used = production.checkKnown rules.contains rule used := by
  cases production with
  | lit _ | ref _ => simp only [check, checkKnown]
  | seq children | alt children =>
    simp only [check, checkKnown, checkAll_eq_checkAllKnown rules rule children used]
  | opt _ child | cond _ _ child | span _ child =>
    simp only [check, checkKnown, check_eq_checkKnown rules rule child used]
termination_by structural production

theorem checkAll_eq_checkAllKnown (rules : RuleSet) (rule : String) (productions : List Production)
    (used : NameSet) :
    checkAll rules rule productions used = checkAllKnown rules.contains rule productions used := by
  cases productions with
  | nil => rfl
  | cons first rest =>
    simp only [checkAll, checkAllKnown, check_eq_checkKnown rules rule first used]
    cases checkKnown rules.contains rule first used with
    | error violation => rfl
    | ok used => exact checkAll_eq_checkAllKnown rules rule rest used
termination_by structural productions
end

/-- Adds the name that a production refers to, and then those below it. -/
def collect (production : Production) (used : NameSet) : NameSet :=
  production.children.attach.foldl (fun used child => collect child.1 used)
    (production.referenceName.toList.foldl NameSet.insert used)
termination_by sizeOf production
decreasing_by exact sizeOf_child_lt child.2

theorem collect_eq (production : Production) (used : NameSet) :
    production.collect used = production.references.foldl NameSet.insert used := by
  induction production using childInduction generalizing used with
  | step production ih =>
    have each : (fun (used : NameSet) (child : { child // child ∈ production.children }) =>
        collect child.1 used) = fun used child => child.1.references.foldl NameSet.insert used := by
      funext used child
      exact ih child.1 child.2 used
    rw [collect, each, references_eq, List.foldl_append, List.foldl_flatMap]
    exact List.foldl_attach
      (f := fun (used : NameSet) (child : Production) => child.references.foldl NameSet.insert used)

end Production

abbrev RuleTable := Table Production

namespace RuleTable

/-- The entry points are picked out as they are met, and then sorted. -/
def entryPoints (table : RuleTable) : List String := Table.inOrder (table.names.filter isEntryPoint)

/-- The names are collected from the bodies as they are met. -/
def referenced (table : RuleTable) : NameSet :=
  table.entries.foldl (fun used rule => rule.2.collect used) (NameSet.singleton startRule)

/-- Checks bodies in turn, up to the first violation. -/
def visit (table : RuleTable) :
    List (String × Production) → NameSet → List Notice × Except Violation NameSet
  | [], used => ([], .ok used)
  | (name, body) :: rest, used =>
    match body.checkKnown table.contains name used with
    | .error violation => ([.visiting name], .error violation)
    | .ok used =>
      let (notices, outcome) := visit table rest used
      (.visiting name :: notices, outcome)

def unused? (table : RuleTable) (used : NameSet) : Option String :=
  table.sortedNames.find? fun name => !isAlternateStart name && !used.contains name

def audit (table : RuleTable) : Audit :=
  match table.visit table.ordered (NameSet.singleton startRule) with
  | (notices, .error violation) => ⟨notices, .error violation⟩
  | (notices, .ok used) =>
    match table.unused? used with
    | some name => ⟨notices, .error (.unreferencedRule name)⟩
    | none => ⟨notices ++ [.validated table.size used.size], .ok ()⟩

/-- A valid table itself, or the first violation. -/
def validate (table : RuleTable) : Except Violation RuleTable := table.audit.verdict.map fun _ => table

variable (table : RuleTable)

theorem visit_sorted (entries : List (String × Production)) (used : NameSet) :
    table.visit entries used = RuleSet.visit table.sorted entries used := by
  have known : NameMap.contains table.sorted = table.contains := funext table.contains_sorted
  induction entries generalizing used with
  | nil => rfl
  | cons rule rest ih =>
    unfold visit RuleSet.visit
    rw [Production.check_eq_checkKnown, known]
    cases rule.2.checkKnown table.contains rule.1 used with
    | error violation => rfl
    | ok used => simp only [ih]

/-- The order in which the rules are met is gone before the first of them is checked. -/
theorem audit_sorted : table.audit = RuleSet.audit table.sorted := by
  have unused (used : NameSet) : table.unused? used = RuleSet.unused? table.sorted used := by
    rw [unused?, table.sortedNames_eq]
    rfl
  have size : table.size = NameMap.size table.sorted := table.sorted_perm.length_eq.symm
  rw [audit, RuleSet.audit, visit_sorted, table.ordered_eq, size]
  generalize RuleSet.visit table.sorted _ _ = outcome
  obtain ⟨notices, outcome⟩ := outcome
  cases outcome with
  | error violation => rfl
  | ok used =>
    cases found : RuleSet.unused? table.sorted used <;> simp only [unused, found]

theorem entryPoints_sorted : table.entryPoints = RuleSet.entryPoints table.sorted :=
  Table.inOrder_eq (table.names_sorted_perm.filter _) (table.sorted.names_ascending.filter _)

theorem mem_referenced_iff {name : String} :
    name ∈ table.referenced.names ↔
      name = startRule ∨ ∃ rule ∈ table.entries, name ∈ rule.2.references := by
  have collected : table.referenced =
      (table.entries.flatMap fun rule => rule.2.references).foldl NameSet.insert
        (NameSet.singleton startRule) := by
    rw [referenced, List.foldl_flatMap]
    simp only [Production.collect_eq]
  rw [collected, NameSet.mem_names_foldl_insert, NameSet.mem_names_singleton, List.mem_flatMap]

/-- The bodies are not sorted here, but a set has no order to show. -/
theorem referenced_sorted : table.referenced = RuleSet.referenced table.sorted := by
  apply NameSet.eq_of_mem_iff
  intro name
  rw [mem_referenced_iff, RuleSet.referenced, NameSet.mem_names_foldl_insert,
    NameSet.mem_names_singleton, List.mem_flatMap]
  simp only [table.sorted_perm.mem_iff]

end RuleTable

namespace RuleSet
variable {rules : RuleSet}

theorem start_lt_alternate {name : String} (alternate : "start_".toList <+: name.toList) :
    "start" < name := by
  obtain ⟨rest, same⟩ := alternate
  rw [String.lt_iff, ← same]
  simp

theorem start_leads_entryPoints (present : "start" ∈ rules.names) :
    rules.entryPoints.head? = some "start" := by
  have member : "start" ∈ rules.entryPoints := List.mem_filter.mpr ⟨present, by decide⟩
  have ascending : rules.entryPoints.Pairwise (· < ·) := rules.names_ascending.filter _
  have entries : ∀ name ∈ rules.entryPoints, isEntryPoint name = true := by
    intro name member
    exact (List.mem_filter.mp member).2
  cases points : rules.entryPoints with
  | nil => simp [points] at member
  | cons first rest =>
    rw [points] at member ascending entries
    rcases List.mem_cons.mp member with same | later
    · rw [same]
      rfl
    · have below := List.rel_of_pairwise_cons ascending later
      rcases isEntryPoint_iff.mp (entries first List.mem_cons_self) with same | alternate
      · exact absurd (same ▸ below) (String.lt_irrefl _)
      · exact absurd (String.lt_trans below (start_lt_alternate alternate)) (String.lt_irrefl _)

end RuleSet

namespace RuleTable
variable {first second : List (String × Production)} {left right : RuleTable}

/-- Two tables filled with pairs of which each name has the same last body are validated alike, with
the same notices, refer to the same names and have the same entry points. These come in the order
of their octets, with `start` before all others, and are what is found for the map of the pairs. -/
theorem insertion_order_leaves_no_trace
    (same : ∀ name, Entries.last? first name = Entries.last? second name)
    (fillsLeft : Table.Fills .empty first left) (fillsRight : Table.Fills .empty second right) :
    left.audit = right.audit ∧ left.referenced = right.referenced ∧
    left.entryPoints = right.entryPoints ∧
    (left.validate = .ok left ∧ right.validate = .ok right ∨
      ∃ violation, left.validate = .error violation ∧ right.validate = .error violation) ∧
    (left.audit = RuleSet.audit (.ofList first) ∧
      left.referenced = RuleSet.referenced (.ofList first) ∧
      left.entryPoints = RuleSet.entryPoints (.ofList first)) ∧
    (left.entryPoints.Pairwise fun one other => Names.octets one < Names.octets other) ∧
    (∀ name, name ∈ left.entryPoints ↔ name ∈ left.names ∧ isEntryPoint name = true) ∧
    ("start" ∈ left.names → left.entryPoints.head? = some "start") := by
  have sorted : left.sorted = right.sorted := by
    apply NameMap.eq_of_get?
    intro name
    rw [fillsLeft.sorted, fillsRight.sorted, NameMap.get?_ofList, NameMap.get?_ofList, same]
  have audits : left.audit = right.audit := by rw [audit_sorted, audit_sorted, sorted]
  have outcome : left.validate = .ok left ∧ right.validate = .ok right ∨
      ∃ violation, left.validate = .error violation ∧ right.validate = .error violation := by
    unfold validate
    rw [audits]
    cases right.audit.verdict with
    | ok _ => exact .inl ⟨rfl, rfl⟩
    | error violation => exact .inr ⟨violation, rfl, rfl⟩
  refine ⟨audits, ?_, ?_, outcome, ?_, ?_, fun name => ?_, fun present => ?_⟩
  · rw [referenced_sorted, referenced_sorted, sorted]
  · rw [entryPoints_sorted, entryPoints_sorted, sorted]
  · rw [← fillsLeft.sorted]
    exact ⟨left.audit_sorted, left.referenced_sorted, left.entryPoints_sorted⟩
  · rw [entryPoints_sorted]
    exact (left.sorted.names_ascending.filter _).imp Names.lt_iff_octets_lt.mp
  · rw [entryPoints, (Table.inOrder_perm _).mem_iff, List.mem_filter]
  · rw [entryPoints_sorted]
    exact RuleSet.start_leads_entryPoints (left.names_sorted_perm.mem_iff.mp present)

/-- A grammar whose word is changed before the last rule is added. -/
def changed : List (String × Production) :=
  [("word", .seq []), ("start", .ref "word"), ("word", .lit "well"), ("start_late", .ref "word")]

def unchanged : List (String × Production) :=
  [("start_late", .ref "word"), ("start", .ref "word"), ("word", .lit "well")]

/-- The rules are met in different orders, but their entry points come in one. -/
theorem changed_word_is_not_seen :
    (∀ name, Entries.last? changed name = Entries.last? unchanged name) ∧
    (Table.ofList changed).names = ["start_late", "word", "start"] ∧
    (Table.ofList unchanged).names = ["word", "start", "start_late"] ∧
    (audit (Table.ofList changed) = audit (Table.ofList unchanged)) ∧
    entryPoints (Table.ofList changed) = ["start", "start_late"] := by
  have same (name : String) : Entries.last? changed name = Entries.last? unchanged name := by
    by_cases start : "start" = name
    · subst start
      rfl
    · by_cases word : "word" = name
      · subst word
        rfl
      · by_cases late : "start_late" = name
        · subst late
          rfl
        · simp [Entries.last?, Entries.get?, changed, unchanged, start, word, late]
  obtain ⟨audits, _, _, _, ⟨_, _, points⟩, _⟩ :=
    insertion_order_leaves_no_trace same (Table.fills_ofList changed) (Table.fills_ofList unchanged)
  exact ⟨same, rfl, rfl, audits, points⟩

end RuleTable
end PracticeGrammar
