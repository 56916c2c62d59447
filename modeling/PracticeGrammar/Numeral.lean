import PracticeGrammar.Binary64.Rounding

/-! Written numbers. A numeral keeps what is written, part by part: a sign, the digits before the
point, the digits after it, and an exponent. Reading takes the longest text that has this shape, so
a numeral may lack digits where a number needs them; `isDecimal` says when it has them. -/

namespace PracticeGrammar

inductive Sign where
  | plus
  | minus
deriving DecidableEq

/-- What follows the letter of an exponent. -/
structure WrittenExponent where
  sign : Option Sign
  digits : List Char
deriving DecidableEq

structure Numeral where
  sign : Option Sign
  whole : List Char
  /-- The digits after the point, or `none` without a point. -/
  fraction : Option (List Char)
  exponent : Option WrittenExponent
deriving DecidableEq

namespace Numeral

/-- A leading sign and what follows it. -/
def takeSign : List Char → Option Sign × List Char
  | '+' :: rest => (some .plus, rest)
  | '-' :: rest => (some .minus, rest)
  | text => (none, text)

def takeFraction : List Char → Option (List Char) × List Char
  | '.' :: rest => (some (rest.takeWhile Char.isDigit), rest.dropWhile Char.isDigit)
  | text => (none, text)

def takeExponent : List Char → Option WrittenExponent × List Char
  | [] => (none, [])
  | letter :: rest =>
    if letter = 'e' ∨ letter = 'E' then
      let (sign, digits) := takeSign rest
      (some ⟨sign, digits.takeWhile Char.isDigit⟩, digits.dropWhile Char.isDigit)
    else (none, letter :: rest)

/-- The longest numeral after a sign that is already read, and the text behind it. -/
def take (sign : Option Sign) (text : List Char) : Numeral × List Char :=
  let whole := text.takeWhile Char.isDigit
  let (fraction, afterFraction) := takeFraction (text.dropWhile Char.isDigit)
  let (exponent, rest) := takeExponent afterFraction
  (⟨sign, whole, fraction, exponent⟩, rest)

/-- The number of characters, all of them one octet long, that the numeral takes up. -/
def width (numeral : Numeral) : Nat :=
  let sign (written : Option Sign) := if written.isSome then 1 else 0
  sign numeral.sign + numeral.whole.length
    + (match numeral.fraction with | none => 0 | some digits => 1 + digits.length)
    + (match numeral.exponent with | none => 0 | some part => 1 + sign part.sign + part.digits.length)

def isNegative (numeral : Numeral) : Bool := numeral.sign == some .minus

/-- A numeral without a point and without an exponent. -/
def isIntegral (numeral : Numeral) : Bool := numeral.fraction.isNone && numeral.exponent.isNone

def fractionDigits (numeral : Numeral) : List Char := numeral.fraction.getD []

def mantissaDigits (numeral : Numeral) : List Char := numeral.whole ++ numeral.fractionDigits

/-- A decimal number has a digit beside its point, and a digit in its exponent if it has one. -/
def isDecimal (numeral : Numeral) : Bool :=
  !numeral.mantissaDigits.isEmpty && numeral.exponent.all fun part => !part.digits.isEmpty

def digitsValue (digits : List Char) : Nat :=
  digits.foldl (fun value digit => 10 * value + (digit.toNat - '0'.toNat)) 0

def exponentValue : Option WrittenExponent → Int
  | none => 0
  | some part => if part.sign = some .minus then -(digitsValue part.digits : Int) else digitsValue part.digits

def toBinary64 (numeral : Numeral) : Binary64 :=
  Binary64.ofDecimal numeral.isNegative (digitsValue numeral.mantissaDigits)
    (exponentValue numeral.exponent - (numeral.fractionDigits.length : Int))

end Numeral

/-- A text that is a number from its first to its last character. Beside decimal numbers these are
the names of the infinities and of NaN, in any mix of cases. -/
def Binary64.ofText? (text : List Char) : Option Binary64 :=
  let (sign, body) := Numeral.takeSign text
  let negative := sign == some .minus
  let name := body.map Char.toLower
  if name = "inf".toList ∨ name = "infinity".toList then some (infinity negative)
  else if name = "nan".toList then some nan
  else match Numeral.take sign body with
    | (numeral, []) => if numeral.isDecimal then some numeral.toBinary64 else none
    | _ => none

end PracticeGrammar
