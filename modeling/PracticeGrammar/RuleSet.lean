import PracticeGrammar.NameMap
import PracticeGrammar.Production.Equality

/-! Grammars as finite maps from rule names to bodies, their entry points, and the names their
bodies refer to. Generation begins at the rule `start` or at a rule whose name begins with
`start_`; no other rule has to be reachable by itself. -/

namespace PracticeGrammar

abbrev RuleSet := NameMap Production

def startRule : String := "start"

def isAlternateStart (name : String) : Bool := "start_".toList.isPrefixOf name.toList

def isEntryPoint (name : String) : Bool := name == startRule || isAlternateStart name

namespace RuleSet

/-- The entry points among the rules, in ascending order. -/
def entryPoints (rules : RuleSet) : List String := rules.names.filter isEntryPoint

/-- The names that references use anywhere, and `start`, whether or not they are rules. -/
def referenced (rules : RuleSet) : NameSet :=
  (rules.entries.flatMap fun rule => rule.2.references).foldl NameSet.insert
    (NameSet.singleton startRule)

/-- What is reported of a loaded rule set. -/
structure Summary where
  count : Nat
  entryPoints : List String
  referenced : List String
deriving DecidableEq

def summary (rules : RuleSet) : Summary :=
  ⟨rules.size, rules.entryPoints, rules.referenced.names⟩

/-- Both lists name the same rules in the same order, with equal bodies. -/
def equalEntries : List (String × Production) → List (String × Production) → Bool
  | [], [] => true
  | (leftName, left) :: lefts, (rightName, right) :: rights =>
    leftName == rightName && left.equal right && equalEntries lefts rights
  | _, _ => false

/-- Equality of rule sets. Entries are kept in order, so it suffices to compare them in order. -/
def equal (left right : RuleSet) : Bool := equalEntries left.entries right.entries

end RuleSet
end PracticeGrammar
