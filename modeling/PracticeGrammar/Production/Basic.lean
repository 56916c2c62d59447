import PracticeGrammar.Binary64.Basic

/-! Productions: the bodies of grammar rules. Literals and references are leaves; every other
production is built from child productions. -/

namespace PracticeGrammar

inductive Production where
  /-- A piece of text. -/
  | lit (text : String)
  /-- All children occur, in order. -/
  | seq (children : List Production)
  /-- Exactly one child occurs. -/
  | alt (children : List Production)
  /-- The child occurs with a given probability. -/
  | opt (probability : Binary64) (child : Production)
  /-- A use of the rule of that name. -/
  | ref (name : String)
  /-- The child occurs if a flag is set or, inverted, if it is not. -/
  | cond (flag : String) (inverted : Bool) (child : Production)
  /-- The text of the child carries a label. -/
  | span (label : String) (child : Production)

namespace Production

inductive Kind where
  | lit
  | seq
  | alt
  | opt
  | ref
  | cond
  | span
deriving DecidableEq

namespace Kind

def tag : Kind → String
  | .lit => "lit"
  | .seq => "seq"
  | .alt => "alt"
  | .opt => "opt"
  | .ref => "ref"
  | .cond => "cond"
  | .span => "span"

def all : List Kind := [.lit, .seq, .alt, .opt, .ref, .cond, .span]

def ofTag? (tag : String) : Option Kind := all.find? (·.tag == tag)

theorem ofTag?_eq_some_iff {tag : String} {kind : Kind} : ofTag? tag = some kind ↔ kind.tag = tag := by
  constructor
  · intro found
    simpa using List.find?_some found
  · rintro rfl
    cases kind <;> decide

end Kind

def kind : Production → Kind
  | .lit _ => .lit
  | .seq _ => .seq
  | .alt _ => .alt
  | .opt _ _ => .opt
  | .ref _ => .ref
  | .cond _ _ _ => .cond
  | .span _ _ => .span

/-- A leaf by its form. A sequence without children is not one. -/
def isTerminal : Production → Bool
  | .lit _ | .ref _ => true
  | _ => false

def referenceName : Production → Option String
  | .ref name => some name
  | _ => none

def literalValue : Production → Option String
  | .lit text => some text
  | _ => none

/-- The immediate children, left to right. -/
def children : Production → List Production
  | .lit _ | .ref _ => []
  | .seq children | .alt children => children
  | .opt _ child | .cond _ _ child | .span _ child => [child]

mutual
/-- The production itself and everything below it, parents first and left to right. -/
def nodes : Production → List Production
  | .lit text => [.lit text]
  | .ref name => [.ref name]
  | .seq children => .seq children :: nodesOfAll children
  | .alt children => .alt children :: nodesOfAll children
  | .opt probability child => .opt probability child :: nodes child
  | .cond flag inverted child => .cond flag inverted child :: nodes child
  | .span label child => .span label child :: nodes child

def nodesOfAll : List Production → List Production
  | [] => []
  | first :: rest => nodes first ++ nodesOfAll rest
end

theorem nodesOfAll_eq_flatMap (productions : List Production) :
    nodesOfAll productions = productions.flatMap nodes := by
  induction productions with
  | nil => rfl
  | cons first rest ih => simp [nodesOfAll, ih]

theorem nodes_eq_cons (production : Production) :
    production.nodes = production :: production.children.flatMap nodes := by
  cases production <;> simp [nodes, children, nodesOfAll_eq_flatMap]

/-- The names that the references in a production use, in reading order. -/
def references (production : Production) : List String :=
  production.nodes.filterMap referenceName

end Production
end PracticeGrammar
