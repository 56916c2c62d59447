import PracticeGrammar.Binary64.Basic

/-! The shortest decimal text of a number: the fewest digits that still read back to it and, of
those, the nearest to it. The reals that round to a number form an interval; the coarsest decimal
grid with a point in that interval fixes the digits. If any point of a grid lies in the interval,
so does one of the two grid points around the number, so only these are tried. -/

namespace PracticeGrammar.Binary64

/-- A positive finite number as `significand · 2 ^ exponent`. -/
structure Expansion where
  significand : Nat
  exponent : Int

def expansion (number : Binary64) : Expansion :=
  let biased : Nat := number.magnitude / binade
  let fraction := number.magnitude % binade
  if biased = 0 then ⟨fraction, -1074⟩ else ⟨binade + fraction, (biased : Int) - 1075⟩

/-- The reals that round to a number, in quarters of its last place. An even significand also
takes in the two ends. Below a power of two the numbers lie twice as dense. -/
structure Neighbourhood where
  low : Nat
  middle : Nat
  high : Nat
  closed : Bool

def Expansion.neighbourhood (value : Expansion) : Neighbourhood where
  low := if value.significand = binade ∧ -1074 < value.exponent then 4 * value.significand - 1
    else 4 * value.significand - 2
  middle := 4 * value.significand
  high := 4 * value.significand + 2
  closed := value.significand % 2 = 0

/-- A positive decimal number `digits · 10 ^ exponent`. -/
structure Decimal where
  digits : Nat
  exponent : Int
deriving DecidableEq

/-- The point of the grid of multiples of `10 ^ exponent` that stands for the value: the nearer of
its two neighbours in the interval, and the upper one if both are equally near. -/
def Expansion.onGrid? (value : Expansion) (exponent : Int) : Option Decimal :=
  let around := value.neighbourhood
  let scale := Nat.pow 10 (-exponent).toNat <<< (value.exponent - 2).toNat
  let unit := Nat.pow 10 exponent.toNat <<< (2 - value.exponent).toNat
  let lower := around.middle * scale / unit
  let upper := lower + 1
  let above := if around.closed then around.low * scale ≤ lower * unit
    else around.low * scale < lower * unit
  let below := if around.closed then upper * unit ≤ around.high * scale
    else upper * unit < around.high * scale
  if above ∧ (¬below ∨ 2 * (around.middle * scale) < (lower + upper) * unit) then
    some ⟨lower, exponent⟩
  else if below then some ⟨upper, exponent⟩
  else none

/-- Grids from coarse to fine. No number reaches `10 ^ 309`, and every number lies on the last grid
itself. -/
def grids : List Int := (List.range 1383).map fun (step : Nat) => 308 - (step : Int)

def Expansion.shortest (value : Expansion) : Decimal :=
  (grids.findSome? value.onGrid?).getD ⟨0, 0⟩

def Decimal.digitText (decimal : Decimal) : List Char := Nat.toDigits 10 decimal.digits

/-- Positional notation: never an exponent, and a point only before a fraction. -/
def Decimal.render (decimal : Decimal) : List Char :=
  let digits := decimal.digitText
  let places := (-decimal.exponent).toNat
  if 0 ≤ decimal.exponent then digits ++ List.replicate decimal.exponent.toNat '0'
  else if places < digits.length then
    digits.take (digits.length - places) ++ '.' :: digits.drop (digits.length - places)
  else '0' :: '.' :: List.replicate (places - digits.length) '0' ++ digits

def unsignedText (number : Binary64) : List Char :=
  if number.magnitude = infinityMagnitude then ['i', 'n', 'f']
  else if number.magnitude = 0 then ['0']
  else number.expansion.shortest.render

/-- The text of a number. A NaN has no sign; a negative zero has one. -/
def text (number : Binary64) : String :=
  if number.isNaN then "NaN"
  else if number.isNegative then String.ofList ('-' :: number.unsignedText)
  else String.ofList number.unsignedText

end PracticeGrammar.Binary64
