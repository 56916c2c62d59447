import PracticeGrammar.Proofs.Violations

/-! What a validation depends on: the names of the rules, the violations of each body, and the names
that are referred to. The notices and the verdict can be computed from these alone, without a look
at the bodies. -/

namespace PracticeGrammar

/-- The names of rules, in order, each with the violations of its body. -/
abbrev Findings := List (String × List Violation)

namespace Findings

/-- The rules that are visited: all up to the first with a violation, and that one too. -/
def visited : Findings → List String
  | [] => []
  | (name, []) :: rest => name :: visited rest
  | (name, _ :: _) :: _ => [name]

def violations (found : Findings) : List Violation := found.flatMap (·.2)

/-- The first rule that no reference uses, if it has to be used. -/
def unused? (found : Findings) (used : NameSet) : Option String :=
  (found.map (·.1)).find? fun name => !isAlternateStart name && !used.contains name

def verdict (found : Findings) (used : NameSet) : Except Violation Unit :=
  Violation.firstOr () (found.violations ++ ((found.unused? used).map .unreferencedRule).toList)

/-- A validation that ends well says so. -/
def closing (found : Findings) (used : NameSet) : List Notice :=
  match found.verdict used with
  | .ok _ => [.validated found.length used.size]
  | .error _ => []

def audit (found : Findings) (used : NameSet) : Audit :=
  ⟨found.visited.map .visiting ++ found.closing used, found.verdict used⟩

end Findings

namespace RuleSet
open Violation

def findings (rules : RuleSet) : Findings :=
  rules.entries.map fun rule => (rule.1, rule.2.violations rules rule.1)

theorem names_findings (rules : RuleSet) : rules.findings.map (·.1) = rules.names := by
  rw [findings, List.map_map]
  rfl

theorem violations_findings (rules : RuleSet) : rules.findings.violations = rules.bodyViolations := by
  rw [findings, Findings.violations, List.flatMap_map]
  rfl

theorem unused?_findings (rules : RuleSet) (used : NameSet) :
    rules.findings.unused? used = rules.unused? used := by
  rw [Findings.unused?, names_findings]
  rfl

theorem visit_notices (rules : RuleSet) (entries : List (String × Production)) (used : NameSet) :
    (visit rules entries used).1 =
      (Findings.visited (entries.map fun rule => (rule.1, rule.2.violations rules rule.1))).map
        .visiting := by
  induction entries generalizing used with
  | nil => rfl
  | cons rule rest ih =>
    unfold visit
    rw [Production.check_eq, List.map_cons]
    cases rule.2.violations rules rule.1 with
    | nil => exact congrArg _ (ih _)
    | cons violation _ => rfl

/-- The notices and the verdict of a validation are those of its findings. -/
theorem audit_eq (rules : RuleSet) : rules.audit = rules.findings.audit rules.referenced := by
  have visit : visit rules rules.entries (NameSet.singleton startRule) =
      (rules.findings.visited.map .visiting, firstOr rules.referenced rules.bodyViolations) :=
    Prod.ext (rules.visit_notices rules.entries _) rules.visit_entries
  have size : rules.findings.length = rules.size := List.length_map _
  rw [audit, visit, Findings.audit, Findings.closing, Findings.verdict, violations_findings,
    unused?_findings, size]
  cases rules.bodyViolations with
  | cons violation _ => simp [firstOr]
  | nil =>
    simp only [firstOr, List.nil_append]
    cases rules.unused? rules.referenced <;> simp

/-- Validation reports the first violation of a body, then the first unused rule. -/
theorem validate_eq (rules : RuleSet) :
    rules.validate =
      firstOr rules (rules.bodyViolations ++
        ((rules.unused? rules.referenced).map .unreferencedRule).toList) := by
  rw [validate, audit_eq, Findings.audit, Findings.verdict, violations_findings, unused?_findings]
  cases rules.bodyViolations ++ ((rules.unused? rules.referenced).map .unreferencedRule).toList <;> rfl

/-- Two rule sets that no one can tell apart by validating them or by asking what they refer to. -/
structure ValidatedAlike (left right : RuleSet) : Prop where
  result : left.validate = right.validate.map fun _ => left
  verdict : left.audit.verdict = right.audit.verdict
  notices : left.audit.notices = right.audit.notices
  referenced : left.referenced = right.referenced

theorem validatedAlike_of_findings {left right : RuleSet}
    (found : left.findings = right.findings)
    (referenced : left.referenced = right.referenced) : left.ValidatedAlike right := by
  have audit : left.audit = right.audit := by rw [audit_eq, audit_eq, found, referenced]
  refine ⟨?_, by rw [audit], by rw [audit], referenced⟩
  rw [validate, validate, audit]
  cases right.audit.verdict <;> rfl

end RuleSet
end PracticeGrammar
