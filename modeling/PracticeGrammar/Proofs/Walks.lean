import PracticeGrammar.Proofs.WellFormedness

/-! Walks through a grammar, as generation makes them: from a node to one of its children, and from
a reference to the body of the rule that it names. A walk may go round cycles of rules without end;
in a valid rule set every node it meets can be used as it stands. -/

namespace PracticeGrammar.RuleSet

inductive Step (rules : RuleSet) : Production → Production → Prop where
  | down {node child} (member : child ∈ node.children) : Step rules node child
  | follow {node name body} (reference : node.referenceName = some name)
      (found : rules.get? name = some body) : Step rules node body

/-- A walk by the nodes it has met, the last of them first. -/
inductive Walk (rules : RuleSet) : List Production → Prop where
  | start {name body} (rule : rules.get? name = some body) : Walk rules [body]
  | step {node next met} (before : Walk rules (node :: met)) (step : Step rules node next) :
      Walk rules (next :: node :: met)

variable {rules : RuleSet}

/-- A walk never leaves the bodies of the rules. -/
theorem Walk.holds {met : List Production} (walk : Walk rules met) {node : Production}
    (member : node ∈ met) : rules.Holds node := by
  induction walk generalizing node with
  | start rule =>
    cases List.mem_singleton.mp member
    exact holds_body (NameMap.get?_eq_some_iff.mp rule)
  | step _ step ih =>
    rcases List.mem_cons.mp member with rfl | earlier
    · cases step with
      | down child => exact holds_child (ih List.mem_cons_self) child
      | follow _ found => exact holds_body (NameMap.get?_eq_some_iff.mp found)
    · exact ih earlier

/-- A sound node is a leaf by its form exactly if it has no children. -/
theorem terminal_iff_of_sound {node : Production} (sound : node.Sound rules) :
    node.isTerminal = true ↔ node.children = [] := by
  cases node with
  | lit _ | ref _ | opt _ _ | cond _ _ _ | span _ _ =>
    simp [Production.isTerminal, Production.children]
  | seq children | alt children =>
    have nonempty : children ≠ [] := sound
    simp [Production.isTerminal, Production.children, nonempty]

/-- The only sound nodes without a way on are the literals. -/
theorem stuck_iff_of_sound {node : Production} (sound : node.Sound rules) :
    (∀ next, ¬Step rules node next) ↔ ∃ text, node = .lit text := by
  constructor
  · intro stuck
    have childless : node.children = [] :=
      List.eq_nil_iff_forall_not_mem.mpr fun child member => stuck child (.down member)
    have terminal := (terminal_iff_of_sound sound).mpr childless
    cases node with
    | lit text => exact ⟨text, rfl⟩
    | ref name =>
      obtain ⟨body, present⟩ := NameMap.mem_names_iff.mp sound
      exact absurd (.follow rfl (NameMap.get?_eq_some_iff.mpr present)) (stuck body)
    | seq _ | alt _ | opt _ _ | cond _ _ _ | span _ _ => cases terminal
  · rintro ⟨text, rfl⟩ next step
    cases step with
    | down member => cases member
    | follow reference _ => cases reference

/-- Whatever way a walk through a valid rule set takes, each node that it meets is a literal, a
reference to a rule, an optional with a probability, or another node with children. A node is a
leaf by its form exactly if it has no children, and the walk can go on from all but literals. -/
theorem walk_meets_usable_nodes {result : RuleSet} (accepted : rules.validate = .ok result)
    {met : List Production} (walk : Walk rules met) {node : Production} (member : node ∈ met) :
    ((∃ text, node = .lit text) ∨
      (∃ name, node = .ref name ∧ name ∈ rules.names) ∨
      (∃ probability child, node = .opt probability child ∧ probability.isNaN = false ∧
        Binary64.zero.atMost probability = true ∧ probability.atMost .one = true) ∨
      (node.isTerminal = false ∧ node.kind ≠ .opt)) ∧
    (node.isTerminal = true ↔ node.children = []) ∧
    ((∀ next, ¬Step rules node next) ↔ ∃ text, node = .lit text) := by
  have sound := sound_of_accepted accepted (walk.holds member)
  refine ⟨?_, terminal_iff_of_sound sound, stuck_iff_of_sound sound⟩
  cases node with
  | lit text => exact .inl ⟨text, rfl⟩
  | ref name => exact .inr (.inl ⟨name, rfl, sound⟩)
  | opt probability child => exact .inr (.inr (.inl ⟨probability, child, rfl, sound⟩))
  | seq _ | alt _ | cond _ _ _ | span _ _ =>
    exact .inr (.inr (.inr ⟨rfl, by simp [Production.kind]⟩))

/-- A rule that may use itself again, behind a start that may be left out. -/
def laughter : RuleSet where
  entries := [("laugh", .seq [.lit "ha", .opt ⟨0x3fe0000000000000⟩ (.ref "laugh")]),
    ("start", .cond "funny" false (.ref "laugh"))]
  ascending := by unfold Entries.Ascending; decide

/-- Once round the cycle, a walk is back at the same reference and can still go on. -/
theorem walk_round_a_cycle :
    laughter.validate = .ok laughter ∧
    Walk laughter [.ref "laugh", .opt ⟨0x3fe0000000000000⟩ (.ref "laugh"),
      .seq [.lit "ha", .opt ⟨0x3fe0000000000000⟩ (.ref "laugh")], .ref "laugh",
      .cond "funny" false (.ref "laugh")] ∧
    ¬∀ next, ¬Step laughter (.ref "laugh") next := by
  have accepted : laughter.validate = .ok laughter := rfl
  have walk : Walk laughter [.ref "laugh", .opt ⟨0x3fe0000000000000⟩ (.ref "laugh"),
      .seq [.lit "ha", .opt ⟨0x3fe0000000000000⟩ (.ref "laugh")], .ref "laugh",
      .cond "funny" false (.ref "laugh")] := by
    have start : laughter.get? "start" = some (.cond "funny" false (.ref "laugh")) := rfl
    refine .step (.step (.step (.step (.start start) (.down ?_)) (.follow rfl rfl)) (.down ?_))
      (.down ?_)
    all_goals simp [Production.children]
  refine ⟨accepted, walk, fun stuck => ?_⟩
  obtain ⟨text, same⟩ := (walk_meets_usable_nodes accepted walk List.mem_cons_self).2.2.mp stuck
  cases same

end PracticeGrammar.RuleSet
