import PracticeGrammar.Compiled.Reader
import PracticeGrammar.Validation

/-! Loading rule sets: reading the compiled text, and checking what was read. -/

namespace PracticeGrammar.RuleSet

/-- The rule set of a text, which need not be valid. -/
def parse (text : String) : Except Violation RuleSet :=
  match Compiled.read text.toList with
  | .ok rules => .ok rules
  | .error failure => .error (.malformedNode failure.detail)

/-- The rule set of a text if it is valid, or the first violation. -/
def load (text : String) : Except Violation RuleSet :=
  match parse text with
  | .ok rules => rules.validate
  | .error violation => .error violation

end PracticeGrammar.RuleSet
