import Mathlib.Data.List.Perm.Basic
import PracticeGrammar.Proofs.EqualGrammars
import PracticeGrammar.Proofs.InsertionOrder

/-! Equality of rule sets that are kept in tables. Tables are compared rule by rule, each looked up in
the other table, and this finds them equal just when the sorted rule sets are equal. So nothing that
is said about a grammar tells it from an equal one. -/

namespace PracticeGrammar

def Binary64.negativeZero : Binary64 := .ofMagnitude true 0

namespace Production
variable {left right : Production}

theorem Alike.isTerminal (same : left.Alike right) : left.isTerminal = right.isTerminal := by
  cases same.matches <;> rfl

theorem Alike.literalValue (same : left.Alike right) : left.literalValue = right.literalValue := by
  cases same.matches <;> rfl

end Production

namespace RuleSet
variable {left right : RuleSet}

private theorem get?_alike {lefts rights : List (String × Production)}
    (same : List.Forall₂ RulesAlike lefts rights) (name : String) :
    Option.Rel Production.Alike (Entries.get? lefts name) (Entries.get? rights name) := by
  unfold Entries.get?
  induction same with
  | nil => exact .none
  | @cons left right lefts rights alike _ ih =>
    rw [List.find?_cons, List.find?_cons, ← alike.1]
    cases left.1 == name with
    | true => exact .some alike.2
    | false => exact ih

private theorem forall₂_filterMap {names : List String} {lefts rights : String → Option Production}
    (same : ∀ name, Option.Rel Production.Alike (lefts name) (rights name)) :
    List.Forall₂ RulesAlike (names.filterMap fun name => (lefts name).map (name, ·))
      (names.filterMap fun name => (rights name).map (name, ·)) := by
  induction names with
  | nil => exact .nil
  | cons name names ih =>
    have here := same name
    rw [List.filterMap_cons, List.filterMap_cons]
    generalize lefts name = left at here ⊢
    generalize rights name = right at here ⊢
    cases here with
    | none => exact ih
    | some alike => exact .cons ⟨rfl, alike⟩ ih

theorem isSome_eq_of_alike {left right : Option Production}
    (same : Option.Rel Production.Alike left right) : left.isSome = right.isSome := by
  cases same <;> rfl

theorem exists_of_alike {body : Production} {found : Option Production}
    (same : Option.Rel Production.Alike (some body) found) :
    ∃ other, found = some other ∧ body.Alike other := by
  cases same with
  | some alike => exact ⟨_, rfl, alike⟩

theorem equal_iff_get? : left.equal right = true ↔
    ∀ name, Option.Rel Production.Alike (left.get? name) (right.get? name) := by
  refine equalEntries_iff.trans ⟨get?_alike, fun same => ?_⟩
  have names : left.names = right.names := by
    apply NameMap.names_eq_of_mem_iff
    intro name
    rw [NameMap.mem_names_iff_isSome, NameMap.mem_names_iff_isSome, isSome_eq_of_alike (same name)]
  rw [NameMap.entries_eq left, NameMap.entries_eq right, names]
  exact forall₂_filterMap same

theorem audit_of_equal (same : left.equal right = true) : left.audit = right.audit := by
  rw [audit_eq, audit_eq, findings_of_equal same, referenced_of_equal same]

theorem entryPoints_of_equal (same : left.equal right = true) :
    left.entryPoints = right.entryPoints := by
  rw [entryPoints, entryPoints, names_of_equal same]

end RuleSet

namespace RuleTable
variable {left right : RuleTable}

/-- There are as many rules in both, and each rule of the first is found in the second with an equal
body. -/
def equal (left right : RuleTable) : Bool :=
  left.size == right.size && left.entries.all fun rule => (right.get? rule.1).any rule.2.equal

theorem equal_iff : left.equal right = true ↔ left.size = right.size ∧
    ∀ name body, left.get? name = some body →
      ∃ other, right.get? name = some other ∧ body.Alike other := by
  simp only [equal, Bool.and_eq_true, beq_iff_eq, List.all_eq_true, Option.any_eq_true, Prod.forall,
    ← Entries.get?_eq_some_iff_mem left.distinct, Production.Alike, Table.get?]

theorem mem_names_of_equal (same : left.equal right = true) {name : String} :
    name ∈ left.names ↔ name ∈ right.names := by
  obtain ⟨size, found⟩ := equal_iff.mp same
  have inside : left.names ⊆ right.names := by
    intro name member
    obtain ⟨body, here⟩ := Option.isSome_iff_exists.mp (Table.mem_names_iff_isSome.mp member)
    obtain ⟨other, there, _⟩ := found name body here
    exact Table.mem_names_iff_isSome.mpr (Option.isSome_iff_exists.mpr ⟨other, there⟩)
  -- The names differ from one another, so as many of them as the second table has are all of its names.
  have shorter : right.names.length ≤ left.names.length := by
    simp only [Table.names, List.length_map]
    exact Nat.le_of_eq size.symm
  exact ((List.subperm_of_subset left.distinct inside).perm_of_length_le shorter).mem_iff

theorem equal_iff_get? : left.equal right = true ↔
    ∀ name, Option.Rel Production.Alike (left.get? name) (right.get? name) := by
  constructor
  · intro same name
    obtain ⟨_, found⟩ := equal_iff.mp same
    cases here : left.get? name with
    | some body =>
      obtain ⟨other, there, alike⟩ := found name body here
      rw [there]
      exact .some alike
    | none =>
      have absent : right.get? name = none := by
        have known : name ∈ left.names ↔ name ∈ right.names := mem_names_of_equal same
        rw [Table.mem_names_iff_isSome, Table.mem_names_iff_isSome, here] at known
        simpa using known
      rw [absent]
      exact .none
  · intro same
    refine equal_iff.mpr ⟨?_, fun name body here => ?_⟩
    · have members (name : String) : name ∈ left.names ↔ name ∈ right.names := by
        rw [Table.mem_names_iff_isSome, Table.mem_names_iff_isSome,
          RuleSet.isSome_eq_of_alike (same name)]
      have together := (List.perm_ext_iff_of_nodup left.distinct right.distinct).mpr members
      simpa [Table.size] using together.length_eq
    · exact RuleSet.exists_of_alike (here ▸ same name)

/-- Tables are equal just when the rule sets they hold are, in whatever order the rules are met. -/
theorem equal_sorted (left right : RuleTable) :
    left.equal right = RuleSet.equal left.sorted right.sorted := by
  rw [Bool.eq_iff_iff, equal_iff_get?, RuleSet.equal_iff_get?]
  simp only [Table.get?_sorted]

end RuleTable

/-- Equal rule sets are validated alike, with the same notices and the same violation to the last
bit, refer to the same names and begin in the same places, and so do equal tables. Equal productions
agree in all that can be asked of them, and their children are equal in pairs. -/
theorem equals_are_treated_alike :
    (∀ left right : RuleSet, left.equal right = true →
      left.ValidatedAlike right ∧ left.entryPoints = right.entryPoints) ∧
    (∀ left right : RuleTable, left.equal right = true →
      left.audit = right.audit ∧ left.referenced = right.referenced ∧
        left.entryPoints = right.entryPoints) ∧
    ∀ left right : Production, left.equal right = true →
      left.kind = right.kind ∧ left.isTerminal = right.isTerminal ∧
        left.referenceName = right.referenceName ∧ left.literalValue = right.literalValue ∧
        List.Forall₂ Production.Alike left.children right.children := by
  refine ⟨fun left right same => ?_, fun left right same => ?_, fun left right same => ?_⟩
  · refine ⟨RuleSet.validatedAlike_of_findings ?_ ?_, RuleSet.entryPoints_of_equal same⟩
    · exact RuleSet.findings_of_equal same
    · exact RuleSet.referenced_of_equal same
  · rw [RuleTable.equal_sorted] at same
    simp only [RuleTable.audit_sorted, RuleTable.referenced_sorted, RuleTable.entryPoints_sorted]
    exact ⟨RuleSet.audit_of_equal same, RuleSet.referenced_of_equal same,
      RuleSet.entryPoints_of_equal same⟩
  · have alike : left.Alike right := same
    exact ⟨Production.kind_eq_of_equal same, alike.isTerminal, alike.referenceName,
      alike.literalValue, alike.children⟩

namespace RuleSet

def two : Binary64 := .ofMagnitude false (1024 * Binary64.binade)

/-- A sky that clouds over with a given probability, and then clears with none. -/
def sky (clouds : Binary64) : Production :=
  .seq [.opt clouds (.lit "clouds"), .opt two (.lit "sun")]

def weather (clouds : Binary64) : RuleSet where
  entries := [("start", sky clouds), ("start_night", .lit "stars")]
  ascending := Entries.ascending_of_names (show ["start", "start_night"].Pairwise (· < ·) by decide)

/-- The sign of a zero is seen neither in what is reported of the weather, nor in tables that have
its rules in different orders. -/
theorem sign_of_zero_is_not_seen :
    Binary64.negativeZero ≠ .zero ∧ (weather .zero).equal (weather .negativeZero) = true ∧
    (weather .zero).validate = .error (.invalidProbability two "start") ∧
    (weather .negativeZero).validate = .error (.invalidProbability two "start") ∧
    (weather .zero).entryPoints = (weather .negativeZero).entryPoints ∧
    RuleTable.equal (Table.ofList (weather .zero).entries)
      (Table.ofList (weather .negativeZero).entries.reverse) = true ∧
    RuleTable.audit (Table.ofList (weather .zero).entries) =
      RuleTable.audit (Table.ofList (weather .negativeZero).entries.reverse) ∧
    List.Forall₂ Production.Alike (sky .zero).children (sky .negativeZero).children := by
  have sets : (weather .zero).equal (weather .negativeZero) = true := rfl
  have tables : RuleTable.equal (Table.ofList (weather .zero).entries)
      (Table.ofList (weather .negativeZero).entries.reverse) = true := rfl
  have productions : (sky .zero).equal (sky .negativeZero) = true := rfl
  have rejected : (weather .negativeZero).validate = .error (.invalidProbability two "start") := rfl
  obtain ⟨alike, points⟩ := equals_are_treated_alike.1 _ _ sets
  obtain ⟨audits, _⟩ := equals_are_treated_alike.2.1 _ _ tables
  obtain ⟨_, _, _, _, children⟩ := equals_are_treated_alike.2.2 _ _ productions
  exact ⟨by decide, sets, alike.result.trans (rejected ▸ rfl), rejected, points, tables, audits,
    children⟩

end RuleSet
end PracticeGrammar
