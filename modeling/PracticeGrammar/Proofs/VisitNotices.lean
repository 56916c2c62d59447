import PracticeGrammar.Proofs.FirstViolation

/-! The notices of a validation tell how it ended. Bodies are visited up to the one that is at fault, or
all of them, and the closing notice is there only if nothing is wrong. -/

namespace PracticeGrammar

namespace Names

theorem mem_upTo_iff {before behind : List String} {last name : String}
    (ascending : (before ++ last :: behind).Pairwise (· < ·)) :
    name ∈ before ++ [last] ↔ name ∈ before ++ last :: behind ∧ name ≤ last := by
  obtain ⟨_, tail, below⟩ := List.pairwise_append.mp ascending
  simp only [List.mem_append, List.mem_cons, List.not_mem_nil, or_false]
  constructor
  · rintro (earlier | rfl)
    · have below := below name earlier last List.mem_cons_self
      exact ⟨.inl earlier, String.not_lt.mp fun above => String.lt_irrefl _ (String.lt_trans below above)⟩
    · exact ⟨.inr (.inl rfl), String.le_refl name⟩
  · rintro ⟨earlier | rfl | later, notAbove⟩
    · exact .inl earlier
    · exact .inr rfl
    · exact absurd (List.rel_of_pairwise_cons tail later) (String.not_lt.mpr notAbove)

end Names

def Notice.visited? : Notice → Option String
  | .visiting rule => some rule
  | .fileRead _ _ | .validated _ _ => none

/-- The rules that are visited, as the notices tell. -/
def Audit.visited (audit : Audit) : List String := audit.notices.filterMap Notice.visited?

namespace Findings
variable {found : Findings}

theorem visited_prefix (found : Findings) : found.visited <+: found.map (·.1) := by
  induction found with
  | nil => exact List.prefix_rfl
  | cons rule rest ih =>
    obtain ⟨name, violations⟩ := rule
    cases violations with
    | nil => exact List.cons_prefix_cons.mpr ⟨rfl, ih⟩
    | cons _ _ => exact ⟨rest.map (·.1), rfl⟩

theorem visited_of_clean (clean : found.violations = []) : found.visited = found.map (·.1) := by
  induction found with
  | nil => rfl
  | cons rule rest ih =>
    obtain ⟨name, violations⟩ := rule
    obtain ⟨rfl, clean⟩ := List.append_eq_nil_iff.mp clean
    exact congrArg _ (ih clean)

/-- The visit ends with the rule of the first violation. -/
theorem visited_upTo_first {violation : Violation} (first : found.violations.head? = some violation) :
    ∃ before rule others behind, found = before ++ (rule, violation :: others) :: behind ∧
      (∀ earlier ∈ before, earlier.2 = []) ∧ found.visited = before.map (·.1) ++ [rule] := by
  induction found with
  | nil => cases first
  | cons rule rest ih =>
    obtain ⟨name, violations⟩ := rule
    cases violations with
    | cons head others =>
      cases first
      exact ⟨[], name, others, rest, rfl, by simp, rfl⟩
    | nil =>
      obtain ⟨before, rule, others, behind, same, clean, visited⟩ := ih first
      refine ⟨(name, []) :: before, rule, others, behind, congrArg _ same, ?_, congrArg _ visited⟩
      exact List.forall_mem_cons.mpr ⟨rfl, clean⟩

end Findings

namespace RuleSet
variable {rules : RuleSet}

theorem mem_findings_iff {name : String} {violations : List Violation} :
    (name, violations) ∈ rules.findings ↔
      ∃ body, rules.get? name = some body ∧ body.violations rules name = violations := by
  simp only [findings, List.mem_map, NameMap.get?_eq_some_iff, Prod.exists, Prod.mk.injEq]
  constructor
  · rintro ⟨_, body, member, rfl, same⟩
    exact ⟨body, member, same⟩
  · rintro ⟨body, member, same⟩
    exact ⟨name, body, member, rfl, same⟩

theorem closing_findings (rules : RuleSet) : rules.findings.closing rules.referenced =
    match rules.validate with
    | .ok _ => [.validated rules.size rules.referenced.size]
    | .error _ => [] := by
  have length : rules.findings.length = rules.size := List.length_map _
  rw [Findings.closing, validate, audit_eq, Findings.audit, length]
  cases rules.findings.verdict rules.referenced <;> rfl

theorem visited_audit (rules : RuleSet) : rules.audit.visited = rules.findings.visited := by
  have closing : (rules.findings.closing rules.referenced).filterMap Notice.visited? = [] := by
    rw [closing_findings]
    cases rules.validate <;> rfl
  rw [audit_eq, Findings.audit, Audit.visited, List.filterMap_append, closing, List.filterMap_map,
    List.append_nil]
  exact List.filterMap_some

/-- A visit that is halted by a violation has come to the rule at fault, behind none but clean bodies. -/
theorem visited_of_faulty {violation : Violation} {rule : String}
    (first : rules.bodyViolations.head? = some violation) (located : violation.rule? = some rule) :
    ∃ before behind, rules.names = before ++ rule :: behind ∧ rules.audit.visited = before ++ [rule] ∧
      (∀ name ∈ before, ∃ body, rules.get? name = some body ∧ ∀ node ∈ body.nodes, node.Sound rules) ∧
      ∃ body, rules.get? rule = some body ∧
        ∃ node ∈ body.nodes, node.flaw? rules rule = some violation := by
  rw [← violations_findings] at first
  obtain ⟨before, faulty, others, behind, same, clean, visited⟩ := Findings.visited_upTo_first first
  have members (entry : String × List Violation)
      (member : entry ∈ before ++ (faulty, violation :: others) :: behind) :
      ∃ body, rules.get? entry.1 = some body ∧ body.violations rules entry.1 = entry.2 :=
    mem_findings_iff.mp (same ▸ member)
  obtain ⟨body, here, flaws⟩ := members (faulty, violation :: others) (by simp)
  have inside : violation ∈ body.violations rules faulty := by simp [flaws]
  obtain ⟨node, member, flawed⟩ := List.mem_filterMap.mp inside
  -- A violation names the rule in whose body it was found, so the visit ends with that rule.
  obtain rfl : faulty = rule := Option.some.inj ((Production.rule_of_flaw flawed).symm.trans located)
  refine ⟨before.map (·.1), behind.map (·.1), ?_, visited_audit rules ▸ visited, ?_,
    body, here, node, member, flawed⟩
  · rw [← names_findings, same, List.map_append, List.map_cons]
  · intro name present
    obtain ⟨entry, member, rfl⟩ := List.mem_map.mp present
    obtain ⟨earlier, found, none⟩ := members entry (List.mem_append_left _ member)
    exact ⟨earlier, found, Production.violations_eq_nil_iff.mp (none.trans (clean entry member))⟩

theorem visited_of_clean (clean : rules.bodyViolations = []) : rules.audit.visited = rules.names := by
  rw [visited_audit, Findings.visited_of_clean (rules.violations_findings.trans clean), names_findings]

theorem visited_ascending (rules : RuleSet) : rules.audit.visited.Pairwise (· < ·) := by
  have upTo := rules.findings.visited_prefix
  rw [names_findings] at upTo
  rw [visited_audit]
  exact rules.names_ascending.sublist upTo.sublist

theorem notices_audit (rules : RuleSet) : rules.audit.notices = rules.audit.visited.map .visiting ++
    match rules.validate with
    | .ok _ => [.validated rules.size rules.referenced.size]
    | .error _ => [] := by
  rw [← closing_findings, visited_audit, audit_eq, Findings.audit]

theorem traced_audit (rules : RuleSet) :
    rules.audit.notices.filter (·.level == .trace) = rules.audit.visited.map .visiting := by
  have visits : (rules.audit.visited.map Notice.visiting).filter (·.level == .trace) =
      rules.audit.visited.map .visiting := by
    apply List.filter_eq_self.mpr
    intro notice member
    obtain ⟨rule, _, rfl⟩ := List.mem_map.mp member
    rfl
  rw [notices_audit, List.filter_append, visits]
  cases rules.validate <;> exact List.append_nil _

/-- The notices at the level of a trace name the visited rules, each once and in the order of their
octets. If a body is at fault, these are the rules up to that one, which comes last, and nothing is
wrong in the bodies before it. Otherwise they are all rules. One more notice follows exactly if the
rule set is accepted; it tells how many rules there are and how many names are referred to. -/
theorem notices_follow_the_verdict (rules : RuleSet) :
    rules.audit.notices.filter (·.level == .trace) = rules.audit.visited.map .visiting ∧
    (rules.audit.visited.Pairwise fun first second => Names.octets first < Names.octets second) ∧
    (∀ violation rule, rules.validate = .error violation → violation.rule? = some rule →
      (∀ name, name ∈ rules.audit.visited ↔
        name ∈ rules.names ∧ Names.octets name ≤ Names.octets rule) ∧
      rules.audit.visited.getLast? = some rule ∧
      (∃ body, rules.get? rule = some body ∧
        ∃ node ∈ body.nodes, node.flaw? rules rule = some violation) ∧
      ∀ name ∈ rules.audit.visited, name ≠ rule →
        ∃ body, rules.get? name = some body ∧ ∀ node ∈ body.nodes, node.Sound rules) ∧
    (rules.validate = .ok rules ∨ (∃ name, rules.validate = .error (.unreferencedRule name)) →
      rules.audit.visited = rules.names) ∧
    (rules.validate = .ok rules → rules.audit.notices =
      rules.audit.visited.map .visiting ++ [.validated rules.size rules.referenced.size]) ∧
    ∀ violation, rules.validate = .error violation →
      rules.audit.notices = rules.audit.visited.map .visiting := by
  refine ⟨rules.traced_audit, rules.visited_ascending.imp Names.lt_iff_octets_lt.mp,
    fun violation rule rejected located => ?_, fun ended => ?_, fun accepted => ?_,
    fun violation rejected => ?_⟩
  · have first : rules.bodyViolations.head? = some violation := by
      rcases rejected_iff.mp rejected with first | ⟨_, name, rfl, _⟩
      · exact first
      · cases located
    obtain ⟨before, behind, names, visited, clean, faulty⟩ := visited_of_faulty first located
    rw [visited]
    refine ⟨fun name => ?_, List.getLast?_concat, faulty, fun name member other => ?_⟩
    · rw [← Names.le_iff_octets_le, names]
      exact Names.mem_upTo_iff (names ▸ rules.names_ascending)
    · rcases List.mem_append.mp member with earlier | last
      · exact clean name earlier
      · exact absurd (List.mem_singleton.mp last) other
  · apply visited_of_clean
    rcases ended with accepted | ⟨name, rejected⟩
    · exact (accepted_iff.mp accepted).2.1
    · rcases rejected_iff.mp rejected with first | ⟨clean, _⟩
      · obtain ⟨_, located⟩ := located_of_mem_bodyViolations (List.mem_of_mem_head? first)
        cases located
      · exact clean
  · rw [notices_audit, accepted]
  · rw [notices_audit, rejected, List.append_nil]

def tale (ending : Production) : RuleSet where
  entries := [("beginning", .lit "once"), ("end", ending),
    ("start", .seq [.ref "beginning", .ref "end"])]
  ascending :=
    Entries.ascending_of_names (show ["beginning", "end", "start"].Pairwise (· < ·) by decide)

/-- Without a choice of ends the visit does not come to the start. With one it comes to all rules. -/
theorem tale_is_visited_up_to_its_end :
    (tale (.alt [])).validate = .error (.emptyAlternative "end") ∧
    (tale (.alt [])).audit.visited.getLast? = some "end" ∧ "start" ∉ (tale (.alt [])).audit.visited ∧
    (tale (.alt [])).audit.notices = [.visiting "beginning", .visiting "end"] ∧
    (tale (.lit "after")).validate = .ok (tale (.lit "after")) ∧
    (tale (.lit "after")).audit.notices =
      [.visiting "beginning", .visiting "end", .visiting "start", .validated 3 3] := by
  have rejected : (tale (.alt [])).validate = .error (.emptyAlternative "end") := rfl
  have accepted : (tale (.lit "after")).validate = .ok (tale (.lit "after")) := rfl
  obtain ⟨_, _, halted, _, _, failing⟩ := notices_follow_the_verdict (tale (.alt []))
  obtain ⟨_, _, _, whole, closing, _⟩ := notices_follow_the_verdict (tale (.lit "after"))
  obtain ⟨upTo, last, _⟩ := halted _ _ rejected rfl
  refine ⟨rejected, last, fun visited => ?_, failing _ rejected, accepted, ?_⟩
  · exact absurd ((upTo "start").mp visited).2 (by decide)
  · rw [closing accepted, whole (.inl accepted)]
    rfl

end RuleSet
end PracticeGrammar
