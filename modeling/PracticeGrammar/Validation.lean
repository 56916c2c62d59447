import PracticeGrammar.Notice
import PracticeGrammar.RuleSet
import PracticeGrammar.Violation

/-! Validation of rule sets. Bodies are checked first, in the order of the rule names and each from
its root down and left to right: no sequence or alternative is empty, every probability is one, and
every reference names a rule. Then every rule must be in use or be an entry point. The first
violation ends the check. References may form cycles. -/

namespace PracticeGrammar

namespace Production

mutual
/-- Checks one body and adds the names it refers to. -/
def check (rules : RuleSet) (rule : String) : Production → NameSet → Except Violation NameSet
  | .lit _, used => .ok used
  | .ref name, used =>
    if rules.contains name then .ok (used.insert name) else .error (.unresolvedReference name rule)
  | .seq children, used =>
    if children.isEmpty then .error (.emptySequence rule) else checkAll rules rule children used
  | .alt children, used =>
    if children.isEmpty then .error (.emptyAlternative rule) else checkAll rules rule children used
  | .opt probability child, used =>
    if probability.isProbability then check rules rule child used
    else .error (.invalidProbability probability rule)
  | .cond _ _ child, used => check rules rule child used
  | .span _ child, used => check rules rule child used

def checkAll (rules : RuleSet) (rule : String) : List Production → NameSet → Except Violation NameSet
  | [], used => .ok used
  | first :: rest, used =>
    match check rules rule first used with
    | .error violation => .error violation
    | .ok used => checkAll rules rule rest used
end

end Production

/-- The notices of a validation, in order, and what it found. -/
structure Audit where
  notices : List Notice
  verdict : Except Violation Unit

namespace RuleSet

/-- Checks the bodies of the given rules in turn, up to the first violation. -/
def visit (rules : RuleSet) :
    List (String × Production) → NameSet → List Notice × Except Violation NameSet
  | [], used => ([], .ok used)
  | (name, body) :: rest, used =>
    match body.check rules name used with
    | .error violation => ([.visiting name], .error violation)
    | .ok used =>
      let (notices, outcome) := visit rules rest used
      (.visiting name :: notices, outcome)

/-- The first rule that is neither an alternate start nor used. The used names include `start`. -/
def unused? (rules : RuleSet) (used : NameSet) : Option String :=
  rules.names.find? fun name => !isAlternateStart name && !used.contains name

def audit (rules : RuleSet) : Audit :=
  match visit rules rules.entries (NameSet.singleton startRule) with
  | (notices, .error violation) => ⟨notices, .error violation⟩
  | (notices, .ok used) =>
    match rules.unused? used with
    | some name => ⟨notices, .error (.unreferencedRule name)⟩
    | none => ⟨notices ++ [.validated rules.size used.size], .ok ()⟩

/-- A valid rule set itself, or the first violation. -/
def validate (rules : RuleSet) : Except Violation RuleSet := rules.audit.verdict.map fun _ => rules

end RuleSet
end PracticeGrammar
