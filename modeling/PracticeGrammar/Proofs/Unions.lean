import Mathlib.Data.List.Nodup
import PracticeGrammar.Proofs.FirstViolation
import PracticeGrammar.Proofs.Tables

/-! Grammars put together. More rules leave no reference without its rule and more references leave
no rule without a use, so two valid grammars are valid together, as long as they do not give one name
to two bodies. -/

namespace PracticeGrammar

namespace NameMap
variable {α : Type} {left right : NameMap α}

/-- The entries of the second map are put into the first. -/
def union (left right : NameMap α) : NameMap α :=
  right.entries.foldl (fun map entry => map.insert entry.1 entry.2) left

/-- A name that both maps have stands for the same in both. -/
def Agree (left right : NameMap α) : Prop :=
  ∀ one ∈ left.entries, ∀ other ∈ right.entries, one.1 = other.1 → one.2 = other.2

theorem last?_entries (map : NameMap α) (name : String) :
    Entries.last? map.entries name = map.get? name :=
  (Entries.get?_eq_of_perm map.names_distinct map.entries.reverse_perm.symm name).symm

theorem get?_union (left right : NameMap α) (name : String) :
    (left.union right).get? name = (right.get? name).or (left.get? name) := by
  rw [union, get?_foldl_insert, last?_entries]

theorem mem_names_union {name : String} :
    name ∈ (left.union right).names ↔ name ∈ left.names ∨ name ∈ right.names := by
  rw [mem_names_iff_isSome, get?_union, Option.isSome_or, Bool.or_eq_true, or_comm,
    ← mem_names_iff_isSome, ← mem_names_iff_isSome]

theorem get?_union_eq_some_iff (agree : left.Agree right) {name : String} {value : α} :
    (left.union right).get? name = some value ↔
      left.get? name = some value ∨ right.get? name = some value := by
  rw [get?_union]
  cases second : right.get? name with
  | none => simp
  | some other =>
    simp only [Option.some_or, Option.some.injEq, iff_or_self]
    intro first
    exact (agree _ (get?_eq_some_iff.mp first) _ (get?_eq_some_iff.mp second) rfl).symm

end NameMap

namespace RuleSet
variable {left right : RuleSet}

theorem holds_union (agree : left.Agree right) {node : Production} :
    Holds (left.union right) node ↔ left.Holds node ∨ right.Holds node := by
  simp only [holds_iff_get?, NameMap.get?_union_eq_some_iff agree, or_and_right, exists_or]

theorem referenced_union (agree : left.Agree right) :
    referenced (left.union right) = left.referenced.union right.referenced := by
  apply NameSet.eq_of_mem_iff
  intro name
  rw [NameMap.mem_names_union, mem_referenced_iff, mem_referenced_iff, mem_referenced_iff,
    holds_union agree]
  tauto

theorem bodyViolations_union (agree : left.Agree right) (first : left.bodyViolations = [])
    (second : right.bodyViolations = []) : bodyViolations (left.union right) = [] := by
  rw [bodyViolations_eq_nil_iff] at first second ⊢
  intro node held
  rcases (holds_union agree).mp held with held | held
  · exact (first node held).mono fun _ _ known => NameMap.mem_names_union.mpr (.inl known)
  · exact (second node held).mono fun _ _ known => NameMap.mem_names_union.mpr (.inr known)

theorem not_unused_union (agree : left.Agree right) (first : ∀ name, ¬left.Unused name)
    (second : ∀ name, ¬right.Unused name) : ∀ name, ¬Unused (left.union right) name := by
  rw [no_unused_iff] at first second ⊢
  intro name present
  rcases NameMap.mem_names_union.mp present with present | present
  · refine (first name present).imp_right (Or.imp_right fun held => ?_)
    exact (holds_union agree).mpr (.inl held)
  · refine (second name present).imp_right (Or.imp_right fun held => ?_)
    exact (holds_union agree).mpr (.inr held)

theorem entryPoints_union (left right : RuleSet) :
    entryPoints (left.union right) = Table.inOrder (left.entryPoints ∪ right.entryPoints) := by
  have distinct (rules : RuleSet) : rules.entryPoints.Nodup := rules.names_distinct.filter _
  symm
  refine Table.inOrder_eq ?_ ((left.union right).names_ascending.filter _)
  rw [List.perm_ext_iff_of_nodup (List.Nodup.union _ (distinct right)) (distinct _)]
  intro name
  simp only [List.mem_union_iff, entryPoints, List.mem_filter, NameMap.mem_names_union]
  exact or_and_right.symm

/-- Two valid rule sets that agree on the names they share are valid together. Their union refers
to what either of them refers to, and it begins where either of them begins, each entry point once
and in the order of the octets. -/
theorem valid_grammars_compose (first : left.validate = .ok left) (second : right.validate = .ok right)
    (agree : left.Agree right) :
    (∀ name body, (left.union right).get? name = some body ↔
      left.get? name = some body ∨ right.get? name = some body) ∧
    validate (left.union right) = .ok (left.union right) ∧
    referenced (left.union right) = left.referenced.union right.referenced ∧
    (∀ name, name ∈ (left.referenced.union right.referenced).names ↔
      name ∈ left.referenced.names ∨ name ∈ right.referenced.names) ∧
    entryPoints (left.union right) = Table.inOrder (left.entryPoints ∪ right.entryPoints) ∧
    (entryPoints (left.union right)).Pairwise fun one other => Names.octets one < Names.octets other := by
  obtain ⟨_, leftClean, leftUsed⟩ := accepted_iff.mp first
  obtain ⟨_, rightClean, rightUsed⟩ := accepted_iff.mp second
  refine ⟨fun name body => NameMap.get?_union_eq_some_iff agree, accepted_iff.mpr ⟨rfl, ?_, ?_⟩,
    referenced_union agree, fun name => NameMap.mem_names_union, entryPoints_union left right, ?_⟩
  · exact bodyViolations_union agree leftClean rightClean
  · exact not_unused_union agree leftUsed rightUsed
  · exact ((left.union right).names_ascending.filter _).imp Names.lt_iff_octets_lt.mp

def question : RuleSet where
  entries := [("mood", .lit "well"), ("start", .seq [.lit "are you ", .ref "mood"])]
  ascending := by unfold Entries.Ascending; decide

def answer : RuleSet where
  entries := [("because", .seq [.lit "of the sun", .opt .zero (.ref "because")]), ("mood", .lit "well"),
    ("start_reply", .seq [.ref "mood", .ref "because"])]
  ascending := by unfold Entries.Ascending; decide

/-- Question and answer share the mood, and their other rules come between one another. -/
theorem answer_goes_with_question :
    question.validate = .ok question ∧ answer.validate = .ok answer ∧ question.Agree answer ∧
    (question.union answer).names = ["because", "mood", "start", "start_reply"] ∧
    validate (question.union answer) = .ok (question.union answer) ∧
    (question.referenced.union answer.referenced).names = ["because", "mood", "start"] ∧
    entryPoints (question.union answer) = ["start", "start_reply"] := by
  have first : question.validate = .ok question := rfl
  have second : answer.validate = .ok answer := rfl
  have agree : question.Agree answer := by simp [NameMap.Agree, question, answer]
  obtain ⟨_, accepted, referenced, _⟩ := valid_grammars_compose first second agree
  exact ⟨first, second, agree, rfl, accepted, referenced ▸ rfl, rfl⟩

end RuleSet
end PracticeGrammar
