import PracticeGrammar.Binary64.Rounding
import PracticeGrammar.Binary64.Shortest

/-! The tokens of a JSON text. -/

namespace PracticeGrammar.Json

inductive Bracket where
  | object
  | list
deriving DecidableEq

/-- A number as it is written: with a point or an exponent, as a plain integer, or as an integer
behind a minus sign. -/
inductive Number where
  | float (value : Binary64)
  | unsigned (value : Nat)
  | signed (value : Int)
deriving DecidableEq

namespace Number

/-- Integers in 64 bits, and all other numbers. -/
def isWord : Number → Bool
  | .float _ => true
  | .unsigned value => decide (value < 0x10000000000000000)
  | .signed value => decide (-0x8000000000000000 ≤ value ∧ value < 0x8000000000000000)

/-- The narrowest of the number types that holds the number. -/
def typeName (number : Number) : String :=
  match number with
  | .float _ => "f64"
  | .unsigned _ => if number.isWord then "u64" else "u128"
  | .signed _ => if number.isWord then "i64" else "i128"

def text : Number → String
  | .float value => value.text
  | .unsigned value => toString value
  | .signed value => if value < 0 then "-" ++ toString value.natAbs else toString value.natAbs

def toBinary64 : Number → Binary64
  | .float value => value
  | .unsigned value => .ofInt value
  | .signed value => .ofInt value

end Number

inductive Scalar where
  | null
  | bool (value : Bool)
  | string (value : String)
  | number (value : Number)
deriving DecidableEq

inductive Token where
  | opening (bracket : Bracket)
  | closing (bracket : Bracket)
  | colon
  | comma
  | scalar (value : Scalar)
deriving DecidableEq

/-- A token with the octets it takes up in the text: from `start` up to, not including, `stop`. -/
structure Lexeme where
  token : Token
  start : Nat
  stop : Nat
deriving DecidableEq

end PracticeGrammar.Json
