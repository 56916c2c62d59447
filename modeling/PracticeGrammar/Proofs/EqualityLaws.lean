import PracticeGrammar.Proofs.EqualTables
import PracticeGrammar.Proofs.WellFormedness

/-! The laws of equality. It is symmetric and transitive, but what holds a NaN is not even equal to
itself. All of this is read off one description: two values are equal if neither holds a NaN and they
are the same once their zeros have no sign. -/

namespace PracticeGrammar

/-- The laws of an equality that need not relate a value to itself. -/
structure PartialEquivalence {α : Type} (related : α → α → Prop) : Prop where
  symm : ∀ left right, related left right → related right left
  trans : ∀ first second third, related first second → related second third → related first third

/-- Values are related if they are among those that can be compared, and have the same form. -/
def RelatedByForm {α β : Type} (related : α → α → Prop) (comparable : α → Prop) (form : α → β) : Prop :=
  ∀ left right, related left right ↔ comparable left ∧ comparable right ∧ form left = form right

namespace RelatedByForm
variable {α β : Type} {related : α → α → Prop} {comparable : α → Prop} {form : α → β}

theorem partialEquivalence (compared : RelatedByForm related comparable form) :
    PartialEquivalence related where
  symm left right same := by
    obtain ⟨first, second, forms⟩ := (compared left right).mp same
    exact (compared right left).mpr ⟨second, first, forms.symm⟩
  trans first second third same other := by
    obtain ⟨left, _, forms⟩ := (compared first second).mp same
    obtain ⟨_, right, others⟩ := (compared second third).mp other
    exact (compared first third).mpr ⟨left, right, forms.trans others⟩

theorem self_iff (compared : RelatedByForm related comparable form) {value : α} :
    related value value ↔ comparable value := by
  rw [compared]
  simp

end RelatedByForm

theorem forall₂_iff_forms {α β : Type} {related : α → α → Prop} {comparable : α → Prop} {form : α → β}
    {lefts rights : List α}
    (each : ∀ left ∈ lefts, ∀ right,
      related left right ↔ comparable left ∧ comparable right ∧ form left = form right) :
    List.Forall₂ related lefts rights ↔ (∀ left ∈ lefts, comparable left) ∧
      (∀ right ∈ rights, comparable right) ∧ lefts.map form = rights.map form := by
  induction lefts generalizing rights with
  | nil => cases rights <;> simp
  | cons left lefts ih =>
    cases rights with
    | nil => simp
    | cons right rights =>
      have rest : List.Forall₂ related lefts rights ↔ _ :=
        ih fun left member => each left (List.mem_cons_of_mem _ member)
      rw [List.forall₂_cons, each left List.mem_cons_self, rest]
      simp only [List.forall_mem_cons, List.map_cons, List.cons.injEq]
      tauto

namespace Binary64

/-- The number itself, but of the two zeros the positive one. -/
def canonical (number : Binary64) : Binary64 := if number.rank = 0 then zero else number

theorem rank_canonical (number : Binary64) : number.canonical.rank = number.rank := by
  unfold canonical
  split
  next none => exact none.symm ▸ (by decide)
  next => rfl

theorem canonical_eq_iff {left right : Binary64} :
    left.canonical = right.canonical ↔ left.rank = right.rank := by
  constructor
  · intro same
    rw [← rank_canonical, same, rank_canonical]
  · intro same
    unfold canonical
    rw [same]
    split
    next => rfl
    next nonzero => exact eq_of_rank_eq same (same.symm ▸ nonzero)

theorem equal_relatedByForm : RelatedByForm (fun left right : Binary64 => left.equal right = true)
    (·.isNaN = false) canonical := by
  intro left right
  simp only [equal_iff, canonical_eq_iff]

end Binary64

namespace Production

/-- No probability in the production is a NaN. -/
def Numeric (production : Production) : Prop :=
  ∀ probability child, .opt probability child ∈ production.nodes → probability.isNaN = false

theorem numeric_iff {production : Production} : production.Numeric ↔
    (∀ probability child, .opt probability child = production → probability.isNaN = false) ∧
      ∀ child ∈ production.children, child.Numeric := by
  simp only [Numeric, @mem_nodes_iff _ production]
  constructor
  · intro each
    refine ⟨fun probability child here => each probability child (.inl here), ?_⟩
    exact fun child member probability below inside =>
      each probability below (.inr ⟨child, member, inside⟩)
  · rintro ⟨here, each⟩ probability below (same | ⟨child, member, inside⟩)
    · exact here probability below same
    · exact each child member probability below inside

mutual
def canonical : Production → Production
  | .lit text => .lit text
  | .ref name => .ref name
  | .seq children => .seq (canonicalAll children)
  | .alt children => .alt (canonicalAll children)
  | .opt probability child => .opt probability.canonical (canonical child)
  | .cond flag inverted child => .cond flag inverted (canonical child)
  | .span label child => .span label (canonical child)

def canonicalAll : List Production → List Production
  | [] => []
  | first :: rest => canonical first :: canonicalAll rest
end

theorem canonicalAll_eq_map (productions : List Production) :
    canonicalAll productions = productions.map canonical := by
  induction productions with
  | nil => rfl
  | cons first rest ih => rw [canonicalAll, ih, List.map_cons]

/-- Productions are equal if they hold no NaN and differ in nothing but the signs of zeros. -/
theorem alike_relatedByForm : RelatedByForm Alike Numeric canonical := by
  intro left
  induction left using childInduction with
  | step left ih =>
    intro right
    rw [numeric_iff, numeric_iff]
    cases left <;> cases right
    case seq.seq lefts rights | alt.alt lefts rights =>
      have below := @forall₂_iff_forms _ _ Alike Numeric canonical lefts rights ih
      simp [Alike, equal, equalAll_iff, below, canonical, canonicalAll_eq_map, children]
    case opt.opt leftProbability left rightProbability right =>
      have here := Binary64.equal_relatedByForm leftProbability rightProbability
      have below : left.equal right = true ↔ _ := ih left (List.mem_singleton.mpr rfl) right
      simp only [Alike, equal, Bool.and_eq_true, here, below, canonical, children, opt.injEq, and_imp,
        forall_eq_apply_imp_iff, forall_eq, List.forall_mem_singleton]
      tauto
    case cond.cond _ _ left _ _ right | span.span _ left _ right =>
      have below : left.equal right = true ↔ _ := ih left (List.mem_singleton.mpr rfl) right
      simp only [Alike, equal, Bool.and_eq_true, beq_iff_eq, below, canonical, children, cond.injEq,
        span.injEq, reduceCtorEq, false_imp_iff, implies_true, true_and, List.forall_mem_singleton]
      tauto
    -- Leaves hold no probability. Productions of different kinds differ in canonical form too.
    all_goals simp [Alike, equal, canonical, children]

end Production

namespace RuleSet

def Alike (left right : RuleSet) : Prop := left.equal right = true

def Numeric (rules : RuleSet) : Prop :=
  ∀ probability child, rules.Holds (.opt probability child) → probability.isNaN = false

theorem numeric_iff {rules : RuleSet} : rules.Numeric ↔ ∀ rule ∈ rules.entries, rule.2.Numeric := by
  simp only [Numeric, Holds, Production.Numeric]
  constructor
  · exact fun each rule member probability child inside => each probability child ⟨rule, member, inside⟩
  · rintro each probability child ⟨rule, member, inside⟩
    exact each rule member probability child inside

def canonicalEntries (rules : RuleSet) : List (String × Production) :=
  rules.entries.map fun rule => (rule.1, rule.2.canonical)

theorem alike_relatedByForm : RelatedByForm Alike Numeric canonicalEntries := by
  have each : RelatedByForm RulesAlike (fun rule => rule.2.Numeric)
      (fun rule => (rule.1, rule.2.canonical)) := by
    intro left right
    rw [RulesAlike, Production.alike_relatedByForm]
    simp only [Prod.mk.injEq]
    tauto
  intro left right
  rw [numeric_iff, numeric_iff]
  exact equalEntries_iff.trans (forall₂_iff_forms fun left _ right => each left right)

theorem numeric_of_accepted {rules result : RuleSet} (accepted : rules.validate = .ok result) :
    rules.Numeric :=
  fun _ _ held => (sound_of_accepted accepted held).1

end RuleSet

theorem Violation.equal_self_iff {violation : Violation} : violation.equal violation = true ↔
    ¬∃ probability rule, violation = .invalidProbability probability rule ∧ probability.isNaN = true := by
  cases violation with
  | invalidProbability probability rule =>
    have here : probability.equal probability = true ↔ _ := Binary64.equal_relatedByForm.self_iff
    simp [Violation.equal, here]
  | emptySequence _ | emptyAlternative _ | unresolvedReference _ _ | unreferencedRule _ | malformedNode _ =>
    simp [Violation.equal]

namespace RuleTable

def Alike (left right : RuleTable) : Prop := left.equal right = true

theorem alike_relatedByForm : RelatedByForm Alike (fun table => RuleSet.Numeric table.sorted)
    fun table => RuleSet.canonicalEntries table.sorted := by
  intro left right
  rw [Alike, equal_sorted]
  exact RuleSet.alike_relatedByForm _ _

theorem numeric_sorted_iff {table : RuleTable} :
    RuleSet.Numeric table.sorted ↔ ∀ rule ∈ table.entries, rule.2.Numeric := by
  simp only [RuleSet.numeric_iff, table.sorted_perm.mem_iff]

end RuleTable

/-- Equality of productions, of rule sets and of tables of rules is symmetric and transitive, and what
is equal to itself is what holds no NaN at any depth. So a rule set that is accepted is equal to
itself, and so is the violation that is reported of another, unless it is about a NaN. -/
theorem equality_is_partial :
    (PartialEquivalence Production.Alike ∧
      ∀ production : Production, production.equal production = true ↔
        ∀ probability child, .opt probability child ∈ production.nodes → probability.isNaN = false) ∧
    (PartialEquivalence RuleSet.Alike ∧
      ∀ rules : RuleSet, rules.equal rules = true ↔
        ∀ probability child, rules.Holds (.opt probability child) → probability.isNaN = false) ∧
    (PartialEquivalence RuleTable.Alike ∧
      ∀ table : RuleTable, table.equal table = true ↔ ∀ rule ∈ table.entries, rule.2.Numeric) ∧
    (∀ rules : RuleSet, rules.validate = .ok rules → rules.equal rules = true) ∧
    ∀ (rules : RuleSet) violation, rules.validate = .error violation →
      (violation.equal violation = true ↔ ¬∃ probability rule,
        violation = .invalidProbability probability rule ∧ probability.isNaN = true) := by
  have productions := Production.alike_relatedByForm
  have sets := RuleSet.alike_relatedByForm
  have tables := RuleTable.alike_relatedByForm
  refine ⟨⟨productions.partialEquivalence, fun _ => productions.self_iff⟩,
    ⟨sets.partialEquivalence, fun _ => sets.self_iff⟩,
    ⟨tables.partialEquivalence, fun _ => tables.self_iff.trans RuleTable.numeric_sorted_iff⟩, ?_, ?_⟩
  · intro rules accepted
    exact sets.self_iff.mpr (RuleSet.numeric_of_accepted accepted)
  · intro rules violation _
    exact Violation.equal_self_iff

namespace RuleSet

def foggy : RuleSet where
  entries := [("fog", .span "dim" (.opt .nan (.lit "fog"))), ("start", .ref "fog")]
  ascending := by unfold Entries.Ascending; decide

def again (probability : Binary64) : RuleSet where
  entries := [("start", .seq [.lit "once", .opt probability (.ref "start")])]
  ascending := List.pairwise_singleton _ _

/-- Neither the fog nor what is said about it is equal to itself, but a negative zero is no harm. -/
theorem fog_differs_from_itself :
    foggy.validate = .error (.invalidProbability .nan "fog") ∧ foggy.equal foggy = false ∧
    (Violation.invalidProbability .nan "fog").equal (.invalidProbability .nan "fog") = false ∧
    (again .negativeZero).validate = .ok (again .negativeZero) ∧
    (again .negativeZero).equal (again .negativeZero) = true ∧
    (again .zero).equal (again .negativeZero) = true ∧
    (again .negativeZero).equal (again .zero) = true := by
  have rejected : foggy.validate = .error (.invalidProbability .nan "fog") := rfl
  have accepted : (again .negativeZero).validate = .ok (again .negativeZero) := rfl
  have same : (again .zero).equal (again .negativeZero) = true := rfl
  have unknown : foggy.Holds (.opt .nan (.lit "fog")) :=
    holds_child (holds_body List.mem_cons_self) (List.mem_singleton.mpr rfl)
  have nan : Binary64.nan.isNaN = true := by decide
  obtain ⟨_, ⟨laws, self⟩, _, itself, reported⟩ := equality_is_partial
  refine ⟨rejected, ?_, ?_, accepted, itself _ accepted, same, laws.symm _ _ same⟩
  · rw [← Bool.not_eq_true, self]
    exact fun numeric => Bool.noConfusion ((numeric _ _ unknown).symm.trans nan)
  · rw [← Bool.not_eq_true, reported _ _ rejected]
    exact fun numeric => numeric ⟨_, _, rfl, nan⟩

end RuleSet
end PracticeGrammar
