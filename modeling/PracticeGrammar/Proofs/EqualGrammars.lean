import Mathlib.Data.List.Forall2
import PracticeGrammar.Proofs.Findings

/-! Equal rule sets are validated alike. Equal bodies have equal nodes in the same order, and what is
wrong with a node shows in all nodes that are equal to it: only the sign of a zero can differ, and
zero is a probability. -/

namespace PracticeGrammar

namespace Binary64

theorem eq_of_rank_eq {left right : Binary64} (same : left.rank = right.rank)
    (nonzero : left.rank ≠ 0) : left = right := by
  have bits : left.bits.toNat = right.bits.toNat := by
    have leftBound := left.bits.toNat_lt
    have rightBound := right.bits.toNat_lt
    unfold rank isNegative magnitude signBit at same nonzero
    simp only [decide_eq_true_eq] at same nonzero
    split_ifs at same nonzero <;> omega
  obtain ⟨leftBits⟩ := left
  obtain ⟨rightBits⟩ := right
  exact congrArg mk (UInt64.toNat_inj.mp bits)

/-- Equal numbers are both probabilities, or they are the same number. -/
theorem isProbability_or_eq_of_equal {left right : Binary64} (same : left.equal right = true) :
    left.isProbability = true ∧ right.isProbability = true ∨
      left.isProbability = right.isProbability ∧ left = right := by
  obtain ⟨leftNumber, rightNumber, ranks⟩ := equal_iff.mp same
  by_cases zero : left.rank = 0
  · have least : 0 ≤ one.rank := by decide
    refine .inl ⟨?_, ?_⟩ <;> refine isProbability_iff.mpr ⟨by assumption, ?_, ?_⟩ <;> omega
  · have identical := eq_of_rank_eq ranks zero
    exact .inr ⟨by rw [identical], identical⟩

end Binary64

section Pairwise
variable {α β γ : Type} {related : α → β → Prop} {lefts : List α} {rights : List β}

theorem map_eq_of_forall₂ {f : α → γ} {g : β → γ}
    (each : ∀ left right, related left right → f left = g right)
    (pairs : List.Forall₂ related lefts rights) : lefts.map f = rights.map g := by
  rw [← List.forall₂_eq_eq_eq, List.forall₂_map_left_iff, List.forall₂_map_right_iff]
  exact pairs.imp each

theorem filterMap_eq_of_forall₂ {f : α → Option γ} {g : β → Option γ}
    (each : ∀ left right, related left right → f left = g right)
    (pairs : List.Forall₂ related lefts rights) : lefts.filterMap f = rights.filterMap g := by
  have same := congrArg (List.filterMap id) (map_eq_of_forall₂ each pairs)
  simpa only [List.filterMap_map, Function.id_comp] using same

end Pairwise

def Production.Alike (left right : Production) : Prop := left.equal right = true

namespace Production
variable {left right : Production}

theorem equalAll_iff {lefts rights : List Production} :
    equalAll lefts rights = true ↔ List.Forall₂ Alike lefts rights := by
  induction lefts generalizing rights with
  | nil => cases rights <;> simp [equalAll]
  | cons left lefts ih => cases rights <;> simp [equalAll, ih, Alike]

/-- Two productions of one form, with the same texts, equal probabilities and equal children. -/
inductive Matches : Production → Production → Prop where
  | lit (text : String) : Matches (.lit text) (.lit text)
  | ref (name : String) : Matches (.ref name) (.ref name)
  | seq {lefts rights : List Production} (each : List.Forall₂ Alike lefts rights) :
      Matches (.seq lefts) (.seq rights)
  | alt {lefts rights : List Production} (each : List.Forall₂ Alike lefts rights) :
      Matches (.alt lefts) (.alt rights)
  | opt {leftProbability rightProbability : Binary64} {left right : Production}
      (number : leftProbability.equal rightProbability = true) (below : left.Alike right) :
      Matches (.opt leftProbability left) (.opt rightProbability right)
  | cond (flag : String) (inverted : Bool) {left right : Production} (below : left.Alike right) :
      Matches (.cond flag inverted left) (.cond flag inverted right)
  | span (label : String) {left right : Production} (below : left.Alike right) :
      Matches (.span label left) (.span label right)

theorem Alike.matches (same : left.Alike right) : Matches left right := by
  unfold Alike at same
  cases left <;> cases right <;>
    simp only [equal, Bool.and_eq_true, beq_iff_eq, Bool.false_eq_true] at same
  case lit.lit => exact same ▸ .lit _
  case ref.ref => exact same ▸ .ref _
  case seq.seq => exact .seq (equalAll_iff.mp same)
  case alt.alt => exact .alt (equalAll_iff.mp same)
  case opt.opt => exact .opt same.1 same.2
  case cond.cond =>
    obtain ⟨⟨rfl, rfl⟩, below⟩ := same
    exact .cond _ _ below
  case span.span =>
    obtain ⟨rfl, below⟩ := same
    exact .span _ below

theorem Alike.children (same : left.Alike right) : List.Forall₂ Alike left.children right.children := by
  cases same.matches with
  | lit _ | ref _ => exact .nil
  | seq each | alt each => exact each
  | opt _ below | cond _ _ below | span _ below => exact .cons below .nil

private theorem forall₂_flatMap_nodes {lefts rights : List Production}
    (each : ∀ left ∈ lefts, ∀ right, left.Alike right → List.Forall₂ Alike left.nodes right.nodes)
    (same : List.Forall₂ Alike lefts rights) :
    List.Forall₂ Alike (lefts.flatMap nodes) (rights.flatMap nodes) := by
  induction same with
  | nil => exact .nil
  | @cons left right lefts rights first _ ih =>
    rw [List.flatMap_cons, List.flatMap_cons]
    refine List.rel_append (each left List.mem_cons_self right first) (ih ?_)
    exact fun left member => each left (List.mem_cons_of_mem _ member)

/-- Equal productions have equal nodes, one by one. -/
theorem Alike.nodes (same : left.Alike right) : List.Forall₂ Alike left.nodes right.nodes := by
  induction left using childInduction generalizing right with
  | step left ih =>
    rw [nodes_eq_cons, nodes_eq_cons]
    exact .cons same (forall₂_flatMap_nodes (fun child member _ => ih child member) same.children)

theorem Alike.referenceName (same : left.Alike right) : left.referenceName = right.referenceName := by
  cases same.matches <;> rfl

theorem Alike.flaw? {rules others : RuleSet} (names : rules.names = others.names)
    (same : left.Alike right) (rule : String) : left.flaw? rules rule = right.flaw? others rule := by
  cases same.matches with
  | lit _ | cond _ _ _ | span _ _ => rfl
  | ref name =>
    have known := NameMap.contains_eq_of_names names name
    simp only [Production.flaw?, known]
  | seq each | alt each => cases each <;> rfl
  | opt number _ =>
    rcases Binary64.isProbability_or_eq_of_equal number with ⟨first, second⟩ | ⟨_, identical⟩
    · simp only [Production.flaw?, first, second, if_true]
    · simp only [Production.flaw?, identical]

theorem Alike.references (same : left.Alike right) : left.references = right.references :=
  filterMap_eq_of_forall₂ (fun _ _ => Alike.referenceName) same.nodes

theorem Alike.violations {rules others : RuleSet} (names : rules.names = others.names)
    (same : left.Alike right) (rule : String) :
    left.violations rules rule = right.violations others rule :=
  filterMap_eq_of_forall₂ (fun _ _ same => same.flaw? names rule) same.nodes

end Production

namespace RuleSet
variable {left right : RuleSet}

def RulesAlike (left right : String × Production) : Prop := left.1 = right.1 ∧ left.2.Alike right.2

theorem equalEntries_iff {lefts rights : List (String × Production)} :
    equalEntries lefts rights = true ↔ List.Forall₂ RulesAlike lefts rights := by
  induction lefts generalizing rights with
  | nil => cases rights <;> simp [equalEntries]
  | cons left lefts ih =>
    cases rights <;> simp [equalEntries, ih, RulesAlike, Production.Alike]

theorem names_of_equal (same : left.equal right = true) : left.names = right.names :=
  map_eq_of_forall₂ (fun _ _ alike => alike.1) (equalEntries_iff.mp same)

theorem referenced_of_equal (same : left.equal right = true) : left.referenced = right.referenced := by
  have used : left.entries.map (·.2.references) = right.entries.map (·.2.references) :=
    map_eq_of_forall₂ (fun _ _ alike => alike.2.references) (equalEntries_iff.mp same)
  rw [referenced, referenced, List.flatMap_def, List.flatMap_def, used]

theorem findings_of_equal (same : left.equal right = true) : left.findings = right.findings := by
  refine map_eq_of_forall₂ ?_ (equalEntries_iff.mp same)
  intro first second alike
  rw [alike.1, alike.2.violations (names_of_equal same)]

/-- A rule set passes, or fails in the very same way, if and as a rule set equal to it does. -/
theorem validate_of_equal (same : left.equal right = true) :
    left.validate = right.validate.map fun _ => left :=
  (validatedAlike_of_findings (findings_of_equal same) (referenced_of_equal same)).result

end RuleSet
end PracticeGrammar
