import PracticeGrammar.Binary64.Basic

/-! The double-precision number nearest to an exact value. A value half way between two numbers
goes to the one with the even significand, values beyond the largest number become infinite, and
values below half of the smallest positive number become zero. -/

namespace PracticeGrammar.Binary64

/-- The integer nearest to a quotient. A half goes to the even neighbour. -/
def roundHalfEven (numerator denominator : Nat) : Nat :=
  let floor := numerator / denominator
  let doubled := 2 * (numerator % denominator)
  if doubled < denominator then floor
  else if denominator < doubled then floor + 1
  else floor + floor % 2

/-- The binary exponent of a positive quotient: the largest `k` with `2 ^ k` at most the quotient.
The lengths of the two terms leave two candidates. -/
def quotientLog2 (numerator denominator : Nat) : Int :=
  let guess : Int := numerator.log2 - denominator.log2
  if denominator <<< guess.toNat ≤ numerator <<< (-guess).toNat then guess else guess - 1

/-- The magnitude nearest to `numerator / denominator`. The significand is read in units of
`2 ^ exponent`; carrying into the next power of two needs no case of its own, because adjacent
numbers have adjacent patterns. -/
def nearestMagnitude (numerator denominator : Nat) : Nat :=
  if numerator = 0 then 0
  else
    let exponent := max (quotientLog2 numerator denominator - 52) (-1074)
    let significand :=
      roundHalfEven (numerator <<< (-exponent).toNat) (denominator <<< exponent.toNat)
    min ((exponent + 1074).toNat * binade + significand) infinityMagnitude

/-- The number nearest to an integer. Zero has no sign here. -/
def ofInt (value : Int) : Binary64 :=
  ofMagnitude (decide (value < 0)) (nearestMagnitude value.natAbs 1)

/-- The magnitude nearest to `digits · 10 ^ exponent`. Exponents that leave the range whatever
the digits are decided first, so no power of ten is longer than the range and the digits ask. -/
def decimalMagnitude (digits : Nat) (exponent : Int) : Nat :=
  if digits = 0 then 0
  else if 310 ≤ exponent then infinityMagnitude
  else if (digits.log2 : Int) + 1100 < -3 * exponent then 0
  else nearestMagnitude (digits * Nat.pow 10 exponent.toNat) (Nat.pow 10 (-exponent).toNat)

def ofDecimal (negative : Bool) (digits : Nat) (exponent : Int) : Binary64 :=
  ofMagnitude negative (decimalMagnitude digits exponent)

end PracticeGrammar.Binary64
