import Mathlib.Data.Fintype.Card
import Mathlib.Data.Set.Finite.Basic
import Mathlib.Order.WellFounded
import PracticeGrammar.Proofs.WellFormedness

/-! Which rules generation can get to. Validation only asks that every rule but the entry points is
used somewhere. This leaves room for rules that no entry point leads to, but not for any such
rules: going from user to user one must in the end come round in a circle of them. -/

namespace PracticeGrammar

/-- Where every element that leads to the last one has an element before it, and there are only
finitely many of them, one of them leads back to itself. -/
private theorem exists_cycle_behind {α : Type} {relation : α → α → Prop} {members : List α} {last : α}
    (inside : ∀ item, Relation.ReflTransGen relation item last → item ∈ members)
    (preceded : ∀ item, Relation.ReflTransGen relation item last → ∃ before, relation before item) :
    ∃ item, Relation.TransGen relation item item ∧ Relation.ReflTransGen relation item last := by
  by_contra acyclic
  let Leading := { item // Relation.ReflTransGen relation item last }
  let Before (first second : Leading) : Prop := Relation.TransGen relation first.1 second.1
  have finite : Finite Leading := (members.finite_toSet.subset inside).to_subtype
  have transitive : IsTrans Leading Before := ⟨fun _ _ _ first second => first.trans second⟩
  have irreflexive : Std.Irrefl Before := ⟨fun item cycle => acyclic ⟨item.1, cycle, item.2⟩⟩
  have founded : WellFounded Before := Finite.wellFounded_of_trans_of_irrefl Before
  obtain ⟨top, _, first⟩ := founded.has_min Set.univ ⟨⟨last, .refl⟩, trivial⟩
  obtain ⟨before, step⟩ := preceded top.1 top.2
  exact first ⟨before, .head step top.2⟩ trivial (.single step)

namespace RuleSet
variable {rules result : RuleSet}

/-- The body of one rule refers to another, which may be the rule itself. -/
def Uses (rules : RuleSet) (user used : String) : Prop :=
  ∃ body, rules.get? user = some body ∧ .ref used ∈ body.nodes

def LeadsTo (rules : RuleSet) : String → String → Prop := Relation.ReflTransGen rules.Uses

/-- Some entry point of the rule set leads to the rule. -/
def Live (rules : RuleSet) (name : String) : Prop :=
  ∃ entry ∈ rules.names, isEntryPoint entry = true ∧ rules.LeadsTo entry name

/-- A use among rules that no entry point leads to. -/
def DeadUse (rules : RuleSet) (user used : String) : Prop :=
  rules.Uses user used ∧ ¬rules.Live user ∧ ¬rules.Live used

/-- Following uses from the rule one can come back to it, past dead rules only. -/
def OnDeadCycle (rules : RuleSet) (name : String) : Prop := Relation.TransGen rules.DeadUse name name

theorem Uses.user_mem {user used : String} (uses : rules.Uses user used) : user ∈ rules.names := by
  obtain ⟨body, found, _⟩ := uses
  exact NameMap.mem_names_iff.mpr ⟨body, NameMap.get?_eq_some_iff.mp found⟩

theorem Live.used {user used : String} (live : rules.Live user) (uses : rules.Uses user used) :
    rules.Live used := by
  obtain ⟨entry, present, start, leads⟩ := live
  exact ⟨entry, present, start, leads.tail uses⟩

theorem live_of_isEntryPoint {name : String} (present : name ∈ rules.names)
    (entry : isEntryPoint name = true) : rules.Live name :=
  ⟨name, present, entry, .refl⟩

theorem holds_ref_iff_used {name : String} :
    rules.Holds (.ref name) ↔ ∃ user, rules.Uses user name := by
  constructor
  · rintro ⟨⟨user, body⟩, present, inside⟩
    exact ⟨user, body, NameMap.get?_eq_some_iff.mpr present, inside⟩
  · rintro ⟨user, body, found, inside⟩
    exact ⟨(user, body), NameMap.get?_eq_some_iff.mp found, inside⟩

/-- In a valid rule set a dead rule is used, and what uses it is dead as well. -/
theorem exists_deadUse (accepted : rules.validate = .ok result) {name : String}
    (present : name ∈ rules.names) (dead : ¬rules.Live name) : ∃ user, rules.DeadUse user name := by
  have noEntry : ¬isEntryPoint name = true := fun entry => dead (live_of_isEntryPoint present entry)
  rw [isEntryPoint_iff] at noEntry
  obtain ⟨_, _, used⟩ := accepted_iff.mp accepted
  have held : rules.Holds (.ref name) := by
    rcases no_unused_iff.mp used name present with start | alternate | held
    · exact absurd (.inl start) noEntry
    · exact absurd (.inr alternate) noEntry
    · exact held
  obtain ⟨user, uses⟩ := holds_ref_iff_used.mp held
  exact ⟨user, uses, fun live => dead (live.used uses), dead⟩

/-- The walk back from a dead rule never leaves the dead rules and never ends, and there are only
finitely many of them. -/
theorem exists_deadCycle (accepted : rules.validate = .ok result) {name : String}
    (present : name ∈ rules.names) (dead : ¬rules.Live name) :
    ∃ looped, rules.OnDeadCycle looped ∧ rules.LeadsTo looped name := by
  have behind (item : String) (leads : Relation.ReflTransGen rules.DeadUse item name) :
      item ∈ rules.names ∧ ¬rules.Live item := by
    rcases leads.cases_head with rfl | ⟨next, ⟨uses, itemDead, _⟩, _⟩
    · exact ⟨present, dead⟩
    · exact ⟨uses.user_mem, itemDead⟩
  have preceded (item : String) (leads : Relation.ReflTransGen rules.DeadUse item name) :
      ∃ user, rules.DeadUse user item := by
    obtain ⟨itemPresent, itemDead⟩ := behind item leads
    exact exists_deadUse accepted itemPresent itemDead
  obtain ⟨looped, cycle, leads⟩ := exists_cycle_behind (fun item leads => (behind item leads).1) preceded
  exact ⟨looped, cycle, leads.lift id fun _ _ use => use.1⟩

/-- Every rule of a valid rule set is led to by an entry point, or else by a rule on a cycle that no
entry point leads to. Where uses form no cycle at all, entry points lead to every rule. -/
theorem rules_are_live_or_behind_dead_cycles (accepted : rules.validate = .ok result) :
    (∀ name ∈ rules.names,
      (∃ entry ∈ rules.names, isEntryPoint entry = true ∧ rules.LeadsTo entry name) ∨
      ∃ looped, rules.OnDeadCycle looped ∧ rules.LeadsTo looped name) ∧
    ((∀ name, ¬Relation.TransGen rules.Uses name name) →
      ∀ name ∈ rules.names, ∃ entry ∈ rules.names, isEntryPoint entry = true ∧ rules.LeadsTo entry name) := by
  have either (name : String) (present : name ∈ rules.names) :
      rules.Live name ∨ ∃ looped, rules.OnDeadCycle looped ∧ rules.LeadsTo looped name := by
    by_cases live : rules.Live name
    · exact .inl live
    · exact .inr (exists_deadCycle accepted present live)
  refine ⟨either, fun acyclic name present => ?_⟩
  rcases either name present with live | ⟨looped, cycle, _⟩
  · exact live
  · exact absurd (cycle.lift id fun _ _ use => use.1) (acyclic looped)

/-- A greeting, and beside it an echo that only its own repetition uses. -/
def echo : RuleSet where
  entries := [("echo", .seq [.lit "hey", .alt [.ref "echo", .ref "end"]]), ("end", .lit "."),
    ("start", .lit "hello")]
  ascending := by unfold Entries.Ascending; decide

/-- Nothing leads to the end of the echo but the echo, which uses itself. -/
theorem echo_leads_to_its_end :
    echo.validate = .ok echo ∧ "end" ∈ echo.names ∧ ¬echo.Live "end" ∧
      ∃ looped, echo.OnDeadCycle looped ∧ echo.LeadsTo looped "end" := by
  have accepted : echo.validate = .ok echo := rfl
  have present : "end" ∈ echo.names := by decide
  have dead : ¬echo.Live "end" := by
    rintro ⟨entry, known, start, leads⟩
    have only : ∀ entry ∈ echo.names, isEntryPoint entry = true → entry = "start" := by decide
    obtain rfl := only entry known start
    rcases leads.cases_head with same | ⟨next, ⟨body, found, inside⟩, _⟩
    · exact absurd same (by decide)
    · have bare : body = .lit "hello" := (Option.some.inj found).symm
      subst bare
      simp [Production.nodes] at inside
  refine ⟨accepted, present, dead, ?_⟩
  exact ((rules_are_live_or_behind_dead_cycles accepted).1 "end" present).resolve_left dead

end RuleSet
end PracticeGrammar
