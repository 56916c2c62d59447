/-! Double-precision binary numbers, kept as their bit patterns. Comparison follows the IEEE
standard: a NaN is comparable to nothing, itself included, and the two zeros are one number.
Numbers that are comparable are ordered by an integer rank, so each comparison law is one
about integers. -/

namespace PracticeGrammar

/-- A double-precision number: one sign bit, eleven exponent bits, fifty-two fraction bits. -/
structure Binary64 where
  bits : UInt64
deriving DecidableEq

namespace Binary64

/-- The sign bit alone. -/
def signBit : Nat := 0x8000000000000000

/-- How many patterns share an exponent: the fraction has fifty-two bits. -/
def binade : Nat := 0x10000000000000

/-- The bit pattern below the sign bit. Larger patterns are larger absolute values. -/
def magnitude (number : Binary64) : Nat := number.bits.toNat % signBit

def isNegative (number : Binary64) : Bool := decide (signBit ≤ number.bits.toNat)

/-- The pattern of an infinity; every pattern above it is a NaN. -/
def infinityMagnitude : Nat := 2047 * binade

def isNaN (number : Binary64) : Bool := decide (infinityMagnitude < number.magnitude)

def ofMagnitude (negative : Bool) (magnitude : Nat) : Binary64 :=
  ⟨UInt64.ofNat (if negative then signBit + magnitude else magnitude)⟩

def zero : Binary64 := ofMagnitude false 0
def one : Binary64 := ofMagnitude false (1023 * binade)
def infinity (negative : Bool) : Binary64 := ofMagnitude negative infinityMagnitude
def nan : Binary64 := ofMagnitude false (infinityMagnitude + binade / 2)

/-- The place of a number in ascending order. Both zeros have rank zero. -/
def rank (number : Binary64) : Int :=
  if number.isNegative then -(number.magnitude : Int) else number.magnitude

def equal (left right : Binary64) : Bool :=
  !left.isNaN && !right.isNaN && left.rank == right.rank

def atMost (left right : Binary64) : Bool :=
  !left.isNaN && !right.isNaN && decide (left.rank ≤ right.rank)

/-- A probability lies between zero and one, both included. -/
def isProbability (number : Binary64) : Bool := atMost zero number && atMost number one

theorem equal_iff {left right : Binary64} : left.equal right = true ↔
    left.isNaN = false ∧ right.isNaN = false ∧ left.rank = right.rank := by
  simp [equal, and_assoc]

theorem isProbability_iff {number : Binary64} : number.isProbability = true ↔
    number.isNaN = false ∧ 0 ≤ number.rank ∧ number.rank ≤ one.rank := by
  have lower : zero.rank = 0 := by decide
  have first : zero.isNaN = false := by decide
  have last : one.isNaN = false := by decide
  simp only [isProbability, atMost, lower, first, last, Bool.and_eq_true, decide_eq_true_eq,
    Bool.not_eq_true', Bool.not_false]
  grind

end Binary64
end PracticeGrammar
