import PracticeGrammar.Json.Token
import PracticeGrammar.Production.Basic

/-! The compiled format: what kind of JSON value stands where in the text of a rule set. The text is
an object of rule names and productions; a production is an object with one tag, whose payload has
the shape of that tag. -/

namespace PracticeGrammar.Compiled
open Json

inductive Shape where
  /-- The object of all rules. -/
  | rules
  | production
  /-- A production inside the payload object of an optional, a conditional or a span. -/
  | child
  | productions
  | text
  | number
  | truth
  /-- The payload object of an optional. -/
  | optional
  /-- The payload object of a conditional. -/
  | conditional
  /-- The payload object of a span. -/
  | span
deriving DecidableEq

namespace Shape

/-- How messages call the shape. -/
def name : Shape → String
  | .rules => "HashMap<String, Production>"
  | .production => "Production"
  | .child => "Box<Production>"
  | .productions => "Vec<Production>"
  | .text => "String"
  | .number => "f64"
  | .truth => "bool"
  | .optional => "OptionalNode"
  | .conditional => "ConditionalNode"
  | .span => "SpanNode"

/-- A child is a production like any other once a value other than null has begun. -/
def bare : Shape → Shape
  | .child => .production
  | shape => shape

end Shape

/-- The first token of a value: all of it, or the bracket that opens it. -/
inductive Head where
  | scalar (value : Scalar)
  | opening (bracket : Bracket)
deriving DecidableEq

end PracticeGrammar.Compiled
