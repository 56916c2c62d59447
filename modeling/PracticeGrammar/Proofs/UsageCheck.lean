import PracticeGrammar.Proofs.FirstViolation

/-! Which names count as used. The names that validation gathers while it checks the bodies are those
that are collected from the bodies without any checking, so the rules it accepts can be told from
the referenced names and the entry points alone. -/

namespace PracticeGrammar

namespace Production

/-- The node is the production or stands below it, at whatever depth. -/
inductive Occurs (node : Production) : Production → Prop where
  | here : Occurs node node
  | inChild {production child} (member : child ∈ production.children) (inside : Occurs node child) :
      Occurs node production

theorem mem_nodes_iff_occurs {node production : Production} :
    node ∈ production.nodes ↔ Occurs node production := by
  constructor
  · intro inside
    induction production using childInduction with
    | step production ih =>
      rcases mem_nodes_iff.mp inside with rfl | ⟨child, member, inside⟩
      · exact .here
      · exact .inChild member (ih child member inside)
  · intro occurs
    induction occurs with
    | here => exact self_mem_nodes node
    | inChild member _ ih => exact mem_nodes_iff.mpr (.inr ⟨_, member, ih⟩)

end Production

namespace RuleSet
variable {rules : RuleSet}

theorem holds_iff_occurs {node : Production} :
    rules.Holds node ↔ ∃ rule ∈ rules.entries, Production.Occurs node rule.2 := by
  simp only [Holds, Production.mem_nodes_iff_occurs]

theorem mem_entryPoints_iff {name : String} :
    name ∈ rules.entryPoints ↔
      name ∈ rules.names ∧ (name = "start" ∨ "start_".toList <+: name.toList) := by
  rw [entryPoints, List.mem_filter, isEntryPoint_iff]

/-- A rule that is neither referenced nor among the entry points. -/
def Neglected (rules : RuleSet) (name : String) : Prop :=
  name ∈ rules.names ∧ name ∉ rules.referenced.names ∧ name ∉ rules.entryPoints

/-- The exemptions of the usage check are the entry points: `start` is among the referenced names
from the outset, whether or not it is a rule. -/
theorem unused_iff_neglected {name : String} : rules.Unused name ↔ rules.Neglected name := by
  simp only [Unused, Neglected, mem_referenced_iff, mem_entryPoints_iff]
  tauto

/-- References are found in a rule set without violations only to its own rules. -/
theorem key_of_referenced (clean : rules.bodyViolations = []) {name : String}
    (referenced : name ∈ rules.referenced.names) (other : name ≠ "start") : name ∈ rules.names := by
  have held := (mem_referenced_iff.mp referenced).resolve_left other
  exact bodyViolations_eq_nil_iff.mp clean _ held

/-- The referenced names are `start` and the names in all references, in the order of their octets.
Where no body has a violation they are the names that the visit of the bodies has gathered, each of
them but `start` is a rule, and validation fails exactly at the first rule that is neither one of
them nor an entry point. -/
theorem usage_is_checked_against_referenced (rules : RuleSet) :
    (∀ name, name ∈ rules.referenced.names ↔
      name = "start" ∨ ∃ rule ∈ rules.entries, Production.Occurs (.ref name) rule.2) ∧
    (rules.referenced.names.Pairwise fun first second => Names.octets first < Names.octets second) ∧
    (rules.bodyViolations = [] →
      (rules.visit rules.entries (NameSet.singleton startRule)).2 = .ok rules.referenced ∧
      (∀ name ∈ rules.referenced.names, name ≠ "start" → name ∈ rules.names) ∧
      (rules.validate = .ok rules ↔
        ∀ name ∈ rules.names, name ∈ rules.referenced.names ∨ name ∈ rules.entryPoints) ∧
      ∀ violation, rules.validate = .error violation ↔
        ∃ name, violation = .unreferencedRule name ∧ rules.Neglected name ∧
          ∀ other, rules.Neglected other → other = name ∨ Names.octets name < Names.octets other) := by
  refine ⟨fun name => ?_, ?_, fun clean => ⟨?_, ?_, ?_, fun violation => ?_⟩⟩
  · rw [mem_referenced_iff, holds_iff_occurs, startRule]
  · exact rules.referenced.names_ascending.imp Names.lt_iff_octets_lt.mp
  · rw [visit_entries, clean]
    rfl
  · exact fun name referenced other => key_of_referenced clean referenced other
  · simp only [accepted_iff, clean, unused_iff_neglected, Neglected, true_and, not_and, not_not]
    exact forall_congr' fun name => forall_congr' fun _ => or_iff_not_imp_left.symm
  · simp only [rejected_iff, clean, unused_iff_neglected, ← Names.lt_iff_octets_lt]
    simp

/-- A farewell that nothing uses, a name for it, and an alternate start. -/
def farewell : RuleSet where
  entries := [("bye", .seq [.lit "bye ", .ref "name"]), ("name", .lit "you"), ("start_late", .ref "name")]
  ascending := by unfold Entries.Ascending; decide

/-- The alternate start is no more used than the farewell, but only the latter is reported. -/
theorem farewell_is_neglected :
    farewell.bodyViolations = [] ∧ farewell.referenced.names = ["name", "start"] ∧
      farewell.entryPoints = ["start_late"] ∧ farewell.validate = .error (.unreferencedRule "bye") ∧
      farewell.Neglected "bye" := by
  have clean : farewell.bodyViolations = [] := rfl
  have rejected : farewell.validate = .error (.unreferencedRule "bye") := rfl
  obtain ⟨_, _, _, verdict⟩ := (usage_is_checked_against_referenced farewell).2.2 clean
  obtain ⟨name, same, neglected, _⟩ := (verdict _).mp rejected
  cases same
  exact ⟨clean, rfl, rfl, rejected, neglected⟩

end RuleSet
end PracticeGrammar
