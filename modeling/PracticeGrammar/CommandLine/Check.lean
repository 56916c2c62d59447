import PracticeGrammar.CommandLine.FileTree
import PracticeGrammar.CommandLine.LogFilter
import PracticeGrammar.CommandLine.Options
import PracticeGrammar.FileFailure
import PracticeGrammar.Loading

/-! Checking a grammar file from the command line: the verdict on what the path holds, and how it is
told on the two output streams and by the exit code. -/

namespace PracticeGrammar.CommandLine

/-- What a run leaves behind. -/
structure Response where
  code : UInt8
  output : String
  errors : String
deriving DecidableEq

/-- What was found, and the notices on the way. -/
structure Findings where
  notices : List Notice
  verdict : Except FileFailure RuleSet

/-- A text is checked in two stages, reading and validation. Only validation gives notice. -/
def checkText (text : String) : Findings :=
  match RuleSet.parse text with
  | .error violation => ⟨[], .error (.invalid violation)⟩
  | .ok rules =>
    let audit := rules.audit
    match audit.verdict with
    | .error violation => ⟨audit.notices, .error (.invalid violation)⟩
    | .ok _ => ⟨audit.notices, .ok rules⟩

/-- The verdict is that of loading the text. -/
theorem checkText_verdict (text : String) : (checkText text).verdict =
    match RuleSet.load text with
    | .ok rules => .ok rules
    | .error violation => .error (.invalid violation) := by
  unfold checkText RuleSet.load
  cases RuleSet.parse text with
  | error violation => rfl
  | ok rules =>
    cases found : rules.audit.verdict <;> simp [found, RuleSet.validate, Except.map]

/-- The text in the octets of a file. -/
def decode (octets : ByteArray) : Except ReadFailure String :=
  match String.fromUTF8? octets with
  | some text => .ok text
  | none => .error .notText

/-- Checks what a path was found to hold. -/
def checkFile (path : String) (contents : Except ReadFailure ByteArray) : Findings :=
  match contents.bind decode with
  | .error failure => ⟨[], .error (.unreadable path failure.reason)⟩
  | .ok text =>
    let findings := checkText text
    { findings with notices := .fileRead text.utf8ByteSize path :: findings.notices }

def errorLine (message : String) : String := "error: " ++ message ++ "\n"

def summaryLine (rules : RuleSet) : String :=
  "ok: " ++ toString rules.size ++ " rules, entry points: " ++ ", ".intercalate rules.entryPoints ++ "\n"

/-- Tells the findings: the log first, then the failure, or the summary unless it is not wanted. -/
def tell (filter : LogFilter) (quiet : Bool) (findings : Findings) : Response :=
  let log := filter.log findings.notices
  match findings.verdict with
  | .error failure => ⟨1, "", log ++ errorLine failure.message⟩
  | .ok rules => ⟨0, if quiet then "" else summaryLine rules, log⟩

/-- Arguments that are not understood are not explained. -/
def misuse : Response := ⟨1, "", errorLine "Could not parse CLI arguments"⟩

/-- A run of the checker, given what each path holds. -/
def respond (arguments : List String) (filter : LogFilter)
    (contents : String → Except ReadFailure ByteArray) : Response :=
  match Options.ofArguments? arguments with
  | none => misuse
  | some options => tell filter options.quiet (checkFile options.path (contents options.path))

end PracticeGrammar.CommandLine
