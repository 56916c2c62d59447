import PracticeGrammar.Binary64.Shortest

/-! What can be wrong with a grammar. -/

namespace PracticeGrammar

inductive Violation where
  | emptySequence (rule : String)
  | emptyAlternative (rule : String)
  | invalidProbability (probability : Binary64) (rule : String)
  | unresolvedReference (name : String) (rule : String)
  | unreferencedRule (name : String)
  /-- The text of a grammar could not be read; the detail says why and where. -/
  | malformedNode (detail : String)
deriving DecidableEq

namespace Violation

inductive Kind where
  | emptySequence
  | emptyAlternative
  | invalidProbability
  | unresolvedReference
  | unreferencedRule
  | malformedNode
deriving DecidableEq

def Kind.name : Kind → String
  | .emptySequence => "EmptySequence"
  | .emptyAlternative => "EmptyAlternative"
  | .invalidProbability => "InvalidProbability"
  | .unresolvedReference => "UnresolvedReference"
  | .unreferencedRule => "UnreferencedRule"
  | .malformedNode => "MalformedNode"

def kind : Violation → Kind
  | .emptySequence _ => .emptySequence
  | .emptyAlternative _ => .emptyAlternative
  | .invalidProbability _ _ => .invalidProbability
  | .unresolvedReference _ _ => .unresolvedReference
  | .unreferencedRule _ => .unreferencedRule
  | .malformedNode _ => .malformedNode

def message : Violation → String
  | .emptySequence rule => "empty seq in rule <" ++ rule ++ ">"
  | .emptyAlternative rule => "empty alt in rule <" ++ rule ++ ">"
  | .invalidProbability probability rule =>
    "invalid opt probability " ++ probability.text ++ " in rule <" ++ rule ++ ">"
  | .unresolvedReference name rule => "invalid ref <" ++ name ++ "> in rule <" ++ rule ++ ">"
  | .unreferencedRule name => "unreferenced rule <" ++ name ++ ">"
  | .malformedNode detail => "malformed grammar node: " ++ detail

/-- Equality of violations. Probabilities are compared as numbers, so a violation about a NaN
differs from itself. -/
def equal : Violation → Violation → Bool
  | .invalidProbability left leftRule, .invalidProbability right rightRule =>
    left.equal right && leftRule == rightRule
  | left, right => left == right

end Violation
end PracticeGrammar
