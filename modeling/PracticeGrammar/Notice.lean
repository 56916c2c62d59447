/-! Progress notices, which a log shows or hides by their level and their target. -/

namespace PracticeGrammar

inductive Level where
  | error
  | warn
  | info
  | debug
  | trace
deriving DecidableEq

namespace Level

def name : Level → String
  | .error => "ERROR"
  | .warn => "WARN"
  | .info => "INFO"
  | .debug => "DEBUG"
  | .trace => "TRACE"

/-- A higher rank is more talkative. -/
def rank : Level → Nat
  | .error => 1
  | .warn => 2
  | .info => 3
  | .debug => 4
  | .trace => 5

def all : List Level := [.error, .warn, .info, .debug, .trace]

/-- The level of a given name, in any mix of cases. -/
def ofName? (name : String) : Option Level :=
  all.find? fun level => level.name.toList == name.toList.map Char.toUpper

end Level

inductive Notice where
  /-- A grammar file was read. -/
  | fileRead (octets : Nat) (path : String)
  /-- Validation turns to the body of a rule. -/
  | visiting (rule : String)
  /-- Validation found nothing wrong. -/
  | validated (rules : Nat) (referenced : Nat)
deriving DecidableEq

namespace Notice

def level : Notice → Level
  | .fileRead _ _ | .validated _ _ => .debug
  | .visiting _ => .trace

def target : Notice → String
  | .fileRead _ _ => "textgram"
  | .visiting _ | .validated _ _ => "textgram::validate"

def text : Notice → String
  | .fileRead octets path => "read " ++ toString octets ++ " bytes from " ++ path
  | .visiting rule => "visiting rule <" ++ rule ++ ">"
  | .validated rules referenced =>
    "validated grammar: " ++ toString rules ++ " rules, " ++ toString referenced ++ " referenced"

end Notice
end PracticeGrammar
