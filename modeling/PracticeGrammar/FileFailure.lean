import PracticeGrammar.Violation

/-! Why a grammar file is not accepted. -/

namespace PracticeGrammar

inductive FileFailure where
  /-- The file could not be read, for the given reason. -/
  | unreadable (path : String) (reason : String)
  | invalid (violation : Violation)
deriving DecidableEq

namespace FileFailure

def message : FileFailure → String
  | .unreadable path reason => "failed to read " ++ path ++ ": " ++ reason
  | .invalid violation => violation.message

/-- The underlying failure, where the message only wraps it. A violation speaks for itself. -/
def source : FileFailure → Option String
  | .unreadable _ reason => some reason
  | .invalid _ => none

end FileFailure
end PracticeGrammar
