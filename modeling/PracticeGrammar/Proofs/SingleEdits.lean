import PracticeGrammar.Proofs.FirstViolation

/-! What can be wrong with a valid rule set after one rule was put in or taken out. Only what was put
in can be at fault, or a reference to what was taken out, or a rule that only the old body used. -/

namespace PracticeGrammar

namespace RuleSet
variable {rules : RuleSet}

/-- What was found wrong is a node of some body, or a rule that is not in use. -/
theorem located_of_rejected {violation : Violation} (rejected : rules.validate = .error violation) :
    (∃ rule body, rules.get? rule = some body ∧
      ∃ node ∈ body.nodes, node.flaw? rules rule = some violation) ∨
    ∃ name, violation = .unreferencedRule name ∧ rules.Unused name := by
  rcases rejected_iff.mp rejected with first | ⟨_, name, same, unused, _⟩
  · obtain ⟨⟨rule, body⟩, present, node, inside, flawed⟩ :=
      mem_bodyViolations_iff.mp (List.mem_of_mem_head? first)
    exact .inl ⟨rule, body, NameMap.get?_eq_some_iff.mpr present, node, inside, flawed⟩
  · exact .inr ⟨name, same, unused⟩

section Edits
variable {edited : RuleSet} {name : String}

/-- Away from the edited rule, a body can only be at fault by a reference to a rule that is gone. -/
theorem fault_elsewhere (accepted : rules.validate = .ok rules)
    (elsewhere : ∀ rule, rule ≠ name → edited.get? rule = rules.get? rule)
    {rule : String} (other : rule ≠ name) {body : Production} (found : edited.get? rule = some body)
    {node : Production} (inside : node ∈ body.nodes) {violation : Violation}
    (flawed : node.flaw? edited rule = some violation) :
    ∃ target, node = .ref target ∧ violation = .unresolvedReference target rule ∧
      target ∈ rules.names ∧ target ∉ edited.names := by
  have sound : node.Sound rules :=
    sound_of_accepted accepted (holds_iff_get?.mpr ⟨rule, body, elsewhere rule other ▸ found, inside⟩)
  by_cases gone : ∃ target, node = .ref target ∧ target ∉ edited.names
  · obtain ⟨target, rfl, absent⟩ := gone
    refine ⟨target, rfl, ?_, sound, absent⟩
    have unknown : edited.contains target = false := by
      rw [← Bool.not_eq_true, NameMap.contains_iff]
      exact absent
    simpa [Production.flaw?, unknown] using flawed.symm
  · have still : node.Sound edited := sound.mono fun target same _ => by
      by_contra absent
      exact gone ⟨target, same, absent⟩
    rw [Production.flaw?_eq_none_iff.mpr still] at flawed
    cases flawed

/-- A rule that an edit leaves without a use was used by the old body of the edited rule. -/
theorem used_before (accepted : rules.validate = .ok rules)
    (elsewhere : ∀ rule, rule ≠ name → edited.get? rule = rules.get? rule)
    {unused : String} (stray : edited.Unused unused) (present : unused ∈ rules.names) :
    ∃ old, rules.get? name = some old ∧ .ref unused ∈ old.nodes := by
  obtain ⟨_, notStart, notAlternate, notHeld⟩ := stray
  have held : rules.Holds (.ref unused) := by
    by_contra notHeld
    exact (accepted_iff.mp accepted).2.2 unused ⟨present, notStart, notAlternate, notHeld⟩
  obtain ⟨rule, body, found, inside⟩ := holds_iff_get?.mp held
  by_cases same : rule = name
  · exact ⟨body, same ▸ found, inside⟩
  · exact absurd (holds_iff_get?.mpr ⟨rule, body, (elsewhere rule same).trans found, inside⟩) notHeld

end Edits

/-- A new or replaced body is at fault itself, or it has left a rule without a use. -/
theorem blame_of_insert (accepted : rules.validate = .ok rules) {name : String} {body : Production}
    {violation : Violation} (rejected : validate (rules.insert name body) = .error violation) :
    (violation.rule? = some name ∧
      ∃ node ∈ body.nodes, node.flaw? (rules.insert name body) name = some violation) ∨
    ∃ unused, violation = .unreferencedRule unused ∧
      (unused = name ∧ name ∉ rules.names ∨
        ∃ old, rules.get? name = some old ∧ .ref unused ∈ old.nodes) := by
  have elsewhere (rule : String) (other : rule ≠ name) :
      (rules.insert name body).get? rule = rules.get? rule :=
    NameMap.get?_insert_other rules body other
  rcases located_of_rejected rejected with ⟨rule, found, here, node, inside, flawed⟩ | stray
  · by_cases same : rule = name
    · subst same
      rw [NameMap.get?_insert_self] at here
      cases here
      exact .inl ⟨Production.rule_of_flaw flawed, node, inside, flawed⟩
    · obtain ⟨target, _, _, known, gone⟩ := fault_elsewhere accepted elsewhere same here inside flawed
      exact absurd (NameMap.mem_names_insert.mpr (.inr known)) gone
  · obtain ⟨unused, same, stray⟩ := stray
    refine .inr ⟨unused, same, ?_⟩
    by_cases present : unused ∈ rules.names
    · exact .inr (used_before accepted elsewhere stray present)
    · obtain rfl := (NameMap.mem_names_insert.mp stray.1).resolve_right present
      exact .inl ⟨rfl, present⟩

/-- A rule that is taken out is missed by another, or it has left a rule without a use. -/
theorem blame_of_erase (accepted : rules.validate = .ok rules) {name : String} {violation : Violation}
    (rejected : validate (rules.erase name) = .error violation) :
    (∃ user body, violation = .unresolvedReference name user ∧ user ≠ name ∧
      rules.get? user = some body ∧ .ref name ∈ body.nodes) ∨
    ∃ unused, violation = .unreferencedRule unused ∧ unused ≠ name ∧ unused ∈ rules.names ∧
      ∃ old, rules.get? name = some old ∧ .ref unused ∈ old.nodes := by
  have elsewhere (rule : String) (other : rule ≠ name) :
      (rules.erase name).get? rule = rules.get? rule := by
    rw [NameMap.get?_erase, if_neg other]
  rcases located_of_rejected rejected with ⟨rule, body, here, node, inside, flawed⟩ | stray
  · have other : rule ≠ name := by
      rintro rfl
      simp [NameMap.get?_erase] at here
    obtain ⟨target, rfl, same, known, gone⟩ :=
      fault_elsewhere accepted elsewhere other here inside flawed
    have erased : target = name := by
      by_contra kept
      exact gone (NameMap.mem_names_erase.mpr ⟨kept, known⟩)
    subst erased
    exact .inl ⟨rule, body, same, other, elsewhere rule other ▸ here, inside⟩
  · obtain ⟨unused, same, stray⟩ := stray
    obtain ⟨other, present⟩ := NameMap.mem_names_erase.mp stray.1
    exact .inr ⟨unused, same, other, present, used_before accepted elsewhere stray present⟩

/-- After a rule is put in, a violation is in the new body, or it is a rule that is not in use: the
new one, or one that only the replaced body used. After a rule is taken out, it is a reference to
that rule in another, or a rule that only the body taken out used. -/
theorem edits_are_blamed_on_what_changed (accepted : rules.validate = .ok rules) (name : String) :
    (∀ body violation, validate (rules.insert name body) = .error violation →
      (violation.rule? = some name ∧
        ∃ node ∈ body.nodes, node.flaw? (rules.insert name body) name = some violation) ∨
      ∃ unused, violation = .unreferencedRule unused ∧
        (unused = name ∧ name ∉ rules.names ∨
          ∃ old, rules.get? name = some old ∧ .ref unused ∈ old.nodes)) ∧
    (∀ violation, validate (rules.erase name) = .error violation →
      (∃ user body, violation = .unresolvedReference name user ∧ user ≠ name ∧
        rules.get? user = some body ∧ .ref name ∈ body.nodes) ∨
      ∃ unused, violation = .unreferencedRule unused ∧ unused ≠ name ∧ unused ∈ rules.names ∧
        ∃ old, rules.get? name = some old ∧ .ref unused ∈ old.nodes) :=
  ⟨fun _ _ rejected => blame_of_insert accepted rejected,
    fun _ rejected => blame_of_erase accepted rejected⟩

/-- A menu on which one dish comes with a side. -/
def menu : RuleSet where
  entries := [("dish", .alt [.lit "soup", .cond "hungry" false (.ref "side")]), ("side", .lit "bread"),
    ("start", .seq [.lit "today: ", .ref "dish"])]
  ascending := by unfold Entries.Ascending; decide

/-- Closing the kitchen leaves the dish without a use, and without bread the dish cannot be made. -/
theorem menu_edits_are_blamed :
    menu.validate = .ok menu ∧
    validate (menu.insert "start" (.lit "closed")) = .error (.unreferencedRule "dish") ∧
    (∃ old, menu.get? "start" = some old ∧ .ref "dish" ∈ old.nodes) ∧
    validate (menu.erase "side") = .error (.unresolvedReference "side" "dish") ∧
    ∃ body, menu.get? "dish" = some body ∧ .ref "side" ∈ body.nodes := by
  have accepted : menu.validate = .ok menu := rfl
  have closed : validate (menu.insert "start" (.lit "closed")) = .error (.unreferencedRule "dish") := rfl
  have breadless : validate (menu.erase "side") = .error (.unresolvedReference "side" "dish") := rfl
  refine ⟨accepted, closed, ?_, breadless, ?_⟩
  · rcases (edits_are_blamed_on_what_changed accepted "start").1 _ _ closed with
      ⟨inBody, _⟩ | ⟨unused, same, new | old⟩
    · cases inBody
    · exact absurd new.2 (by decide)
    · cases same
      exact old
  · rcases (edits_are_blamed_on_what_changed accepted "side").2 _ breadless with
      ⟨user, body, same, _, found⟩ | ⟨unused, same, _⟩
    · cases same
      exact ⟨body, found⟩
    · cases same

end RuleSet
end PracticeGrammar
