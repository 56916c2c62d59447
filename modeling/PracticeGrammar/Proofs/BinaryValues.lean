import Mathlib.Algebra.Order.Field.Power
import Mathlib.Data.Int.ConditionallyCompleteOrder
import Mathlib.Data.Rat.Cast.Order
import Mathlib.Order.Monotone.Basic
import Mathlib.Tactic.FieldSimp
import Mathlib.Tactic.Linarith
import Mathlib.Tactic.Positivity
import Mathlib.Tactic.Ring
import PracticeGrammar.Binary64.Basic

/-! The exact values of double-precision numbers, and what it means that one of them is nearest to
a rational number. Magnitudes are taken to go on above that of the infinities as if there were more
exponents, so that an infinity stands for the number behind the largest finite one: whatever lies
beyond the middle between these two is rounded to it. -/

namespace PracticeGrammar.Binary64

/-- The value of a magnitude: its significand in units of a power of two. Magnitudes below the
second binade share their unit. -/
def magnitudeValue (magnitude : Nat) : ℚ :=
  let exponent := magnitude / binade - 1
  (magnitude - exponent * binade : Nat) * 2 ^ ((exponent : ℤ) - 1074)

/-- The value of a number that is not a NaN. -/
def value (number : Binary64) : ℚ :=
  if number.isNegative then -magnitudeValue number.magnitude else magnitudeValue number.magnitude

/-- The number is nearest to the exact value, and of two that are equally near it is the one with
an even significand. -/
def IsNearest (exact : ℚ) (number : Binary64) : Prop :=
  number.isNaN = false ∧ ∀ other : Binary64, other.isNaN = false →
    |exact - number.value| ≤ |exact - other.value| ∧
      (|exact - number.value| = |exact - other.value| →
        other.value = number.value ∨ Even number.magnitude)

theorem magnitudeValue_eq {exponent significand : Nat} (bound : significand ≤ 2 * binade)
    (normal : exponent = 0 ∨ binade ≤ significand) :
    magnitudeValue (exponent * binade + significand) =
      significand * (2 : ℚ) ^ ((exponent : ℤ) - 1074) := by
  unfold magnitudeValue
  dsimp only
  by_cases carry : significand = 2 * binade
  · subst carry
    have next : (exponent * binade + 2 * binade) / binade - 1 = exponent + 1 := by
      unfold binade
      omega
    have rest : exponent * binade + 2 * binade - (exponent + 1) * binade = binade := by
      unfold binade
      omega
    rw [next, rest, show ((exponent + 1 : Nat) : ℤ) - 1074 = (exponent : ℤ) - 1074 + 1 by push_cast; ring,
      zpow_add_one₀ two_ne_zero]
    push_cast
    ring
  · have same : (exponent * binade + significand) / binade - 1 = exponent := by
      unfold binade at *
      omega
    rw [same, Nat.add_sub_cancel_left]

theorem exists_significand (magnitude : Nat) :
    ∃ exponent significand, magnitude = exponent * binade + significand ∧
      significand < 2 * binade ∧ (exponent = 0 ∨ binade ≤ significand) := by
  refine ⟨magnitude / binade - 1, magnitude - (magnitude / binade - 1) * binade, ?_⟩
  unfold binade
  omega

theorem magnitudeValue_strictMono : StrictMono magnitudeValue := by
  refine strictMono_nat_of_lt_succ fun magnitude => ?_
  obtain ⟨exponent, significand, rfl, below, normal⟩ := exists_significand magnitude
  rw [add_assoc, magnitudeValue_eq below.le normal, magnitudeValue_eq (by omega) (by omega)]
  have unit : (0 : ℚ) < 2 ^ ((exponent : ℤ) - 1074) := by positivity
  push_cast
  linarith

theorem magnitudeValue_nonneg (magnitude : Nat) : 0 ≤ magnitudeValue magnitude := by
  unfold magnitudeValue
  positivity

theorem magnitudeValue_zero : magnitudeValue 0 = 0 := by
  simp [magnitudeValue]

theorem magnitudeValue_one : magnitudeValue 1 = 2 ^ (-1074 : ℤ) := by
  simp [magnitudeValue, binade]

theorem magnitudeValue_infinity : magnitudeValue infinityMagnitude = 2 ^ (1024 : ℤ) := by
  have same : infinityMagnitude = 2046 * binade + binade := by
    unfold infinityMagnitude
    omega
  have unit : ((binade : Nat) : ℚ) = 2 ^ (52 : ℤ) := by norm_num [binade]
  rw [same, magnitudeValue_eq (by omega) (.inr le_rfl), unit, ← zpow_add₀ two_ne_zero]
  norm_num

def ofRank (rank : ℤ) : Binary64 := ofMagnitude (decide (rank < 0)) rank.natAbs

def rankValue (rank : ℤ) : ℚ :=
  if rank < 0 then -magnitudeValue rank.natAbs else magnitudeValue rank.natAbs

theorem rankValue_strictMono : StrictMono rankValue := by
  intro low high below
  have zero := magnitudeValue_zero
  have nonneg := magnitudeValue_nonneg
  unfold rankValue
  split_ifs with lowNegative highNegative highNegative
  · exact neg_lt_neg (magnitudeValue_strictMono (by omega))
  · have positive : magnitudeValue 0 < magnitudeValue low.natAbs :=
      magnitudeValue_strictMono (by omega)
    linarith [nonneg high.natAbs]
  · omega
  · exact magnitudeValue_strictMono (by omega)

theorem value_eq_rankValue (number : Binary64) : number.value = rankValue number.rank := by
  unfold value rank rankValue
  by_cases negative : number.isNegative = true
  · by_cases zero : number.magnitude = 0
    · simp [negative, zero, magnitudeValue_zero]
    · simp [negative, Nat.pos_of_ne_zero zero]
  · simp [negative]

section OfMagnitude
variable {negative : Bool} {magnitude : Nat} (bound : magnitude ≤ infinityMagnitude)
include bound

private theorem bits_ofMagnitude :
    (ofMagnitude negative magnitude).bits.toNat = (if negative then signBit else 0) + magnitude := by
  unfold infinityMagnitude binade at bound
  unfold ofMagnitude
  rw [UInt64.toNat_ofNat']
  cases negative <;> simp [signBit] <;> omega

theorem magnitude_ofMagnitude : (ofMagnitude negative magnitude).magnitude = magnitude := by
  rw [Binary64.magnitude, bits_ofMagnitude bound]
  unfold infinityMagnitude binade at bound
  cases negative <;> simp [signBit] <;> omega

theorem isNegative_ofMagnitude : (ofMagnitude negative magnitude).isNegative = negative := by
  rw [isNegative, bits_ofMagnitude bound]
  unfold infinityMagnitude binade at bound
  cases negative with
  | false => simp [signBit]; omega
  | true => simp [signBit]

theorem isNaN_ofMagnitude : (ofMagnitude negative magnitude).isNaN = false := by
  rw [isNaN, magnitude_ofMagnitude bound]
  exact decide_eq_false (by omega)

theorem value_ofMagnitude : (ofMagnitude negative magnitude).value =
    if negative then -magnitudeValue magnitude else magnitudeValue magnitude := by
  rw [value, magnitude_ofMagnitude bound, isNegative_ofMagnitude bound]

end OfMagnitude

theorem magnitude_le_infinity {number : Binary64} (present : number.isNaN = false) :
    number.magnitude ≤ infinityMagnitude := by
  unfold isNaN at present
  have := of_decide_eq_false present
  omega

theorem natAbs_rank (number : Binary64) : number.rank.natAbs = number.magnitude := by
  unfold rank
  split <;> simp

theorem even_rank_iff {number : Binary64} : Even number.rank ↔ Even number.magnitude := by
  rw [← natAbs_rank, Int.natAbs_even]

theorem value_ofRank {rank : ℤ} (bound : rank.natAbs ≤ infinityMagnitude) :
    (ofRank rank).value = rankValue rank := by
  rw [ofRank, value_ofMagnitude bound, rankValue]
  simp only [decide_eq_true_eq]

/-- Numbers compare as their values do. -/
theorem atMost_iff {left right : Binary64} : left.atMost right = true ↔
    left.isNaN = false ∧ right.isNaN = false ∧ left.value ≤ right.value := by
  rw [value_eq_rankValue, value_eq_rankValue, rankValue_strictMono.le_iff_le]
  simp [atMost, and_assoc]

theorem equal_iff_value {left right : Binary64} : left.equal right = true ↔
    left.isNaN = false ∧ right.isNaN = false ∧ left.value = right.value := by
  rw [value_eq_rankValue, value_eq_rankValue, rankValue_strictMono.injective.eq_iff]
  exact equal_iff

namespace IsNearest
variable {exact : ℚ} {left right : Binary64}

private theorem same_distance (first : IsNearest exact left) (second : IsNearest exact right) :
    |exact - left.value| = |exact - right.value| :=
  le_antisymm (first.2 right second.1).1 (second.2 left first.1).1

/-- Two different numbers cannot both be nearest: both would be even, and the number between them
would be nearer. -/
private theorem not_rank_lt (first : IsNearest exact left) (second : IsNearest exact right) :
    ¬left.rank < right.rank := by
  intro below
  have apart : left.value < right.value := by
    simpa only [value_eq_rankValue] using rankValue_strictMono below
  have distance := same_distance first second
  have leftEven : Even left.rank :=
    even_rank_iff.mpr (((first.2 right second.1).2 distance).resolve_left apart.ne')
  have rightEven : Even right.rank :=
    even_rank_iff.mpr (((second.2 left first.1).2 distance.symm).resolve_left apart.ne)
  have inside : left.rank + 1 < right.rank := by
    obtain ⟨half, same⟩ := leftEven
    obtain ⟨otherHalf, otherSame⟩ := rightEven
    omega
  have leftBound := magnitude_le_infinity first.1
  have rightBound := magnitude_le_infinity second.1
  rw [← natAbs_rank] at leftBound rightBound
  have bound : (left.rank + 1).natAbs ≤ infinityMagnitude := by omega
  have between := (first.2 (ofRank (left.rank + 1)) (isNaN_ofMagnitude bound)).1
  rw [value_ofRank bound, value_eq_rankValue left] at between
  have above : rankValue left.rank < rankValue (left.rank + 1) := rankValue_strictMono (by omega)
  have behind : rankValue (left.rank + 1) < rankValue right.rank := rankValue_strictMono inside
  rw [value_eq_rankValue, value_eq_rankValue right] at distance
  rcases abs_cases (exact - rankValue left.rank) with ⟨leftDistance, _⟩ | ⟨leftDistance, _⟩ <;>
  rcases abs_cases (exact - rankValue right.rank) with ⟨rightDistance, _⟩ | ⟨rightDistance, _⟩ <;>
  rcases abs_cases (exact - rankValue (left.rank + 1)) with ⟨middle, _⟩ | ⟨middle, _⟩ <;>
  linarith

/-- There is one nearest number, up to the sign of zero. -/
theorem equal (first : IsNearest exact left) (second : IsNearest exact right) :
    left.equal right = true := by
  refine equal_iff.mpr ⟨first.1, second.1, ?_⟩
  exact le_antisymm (not_lt.mp (not_rank_lt second first)) (not_lt.mp (not_rank_lt first second))

end IsNearest

/-- The magnitude is nearest to a value that is not negative, among those up to infinity. -/
def IsNearestMagnitude (exact : ℚ) (magnitude : Nat) : Prop :=
  magnitude ≤ infinityMagnitude ∧ ∀ other ≤ infinityMagnitude,
    |exact - magnitudeValue magnitude| ≤ |exact - magnitudeValue other| ∧
      (|exact - magnitudeValue magnitude| = |exact - magnitudeValue other| →
        other = magnitude ∨ Even magnitude)

theorem isNearest_ofMagnitude {exact : ℚ} {magnitude : Nat} {negative : Bool} (positive : 0 ≤ exact)
    (nearest : IsNearestMagnitude exact magnitude) :
    IsNearest (if negative then -exact else exact) (ofMagnitude negative magnitude) := by
  obtain ⟨bound, nearer⟩ := nearest
  refine ⟨isNaN_ofMagnitude bound, fun other present => ?_⟩
  rw [value_ofMagnitude bound, magnitude_ofMagnitude bound]
  have distance : |(if negative then -exact else exact) -
      if negative then -magnitudeValue magnitude else magnitudeValue magnitude| =
      |exact - magnitudeValue magnitude| := by
    cases negative
    · rfl
    · simp only [if_true, neg_sub_neg, abs_sub_comm]
  rw [distance]
  by_cases agree : other.isNegative = negative
  · have otherDistance : |(if negative then -exact else exact) - other.value| =
        |exact - magnitudeValue other.magnitude| := by
      rw [value, agree]
      cases negative
      · rfl
      · simp only [if_true, neg_sub_neg, abs_sub_comm]
    rw [otherDistance]
    obtain ⟨closer, tie⟩ := nearer other.magnitude (magnitude_le_infinity present)
    refine ⟨closer, fun equidistant => (tie equidistant).imp_left ?_⟩
    intro same
    rw [value, agree, same]
  · -- On the other side of zero, zero itself is at least as near.
    obtain ⟨closer, tie⟩ := nearer 0 (by omega)
    rw [magnitudeValue_zero, sub_zero, abs_of_nonneg positive] at closer tie
    have away : |(if negative then -exact else exact) - other.value| =
        exact + magnitudeValue other.magnitude := by
      have size := magnitudeValue_nonneg other.magnitude
      rw [value, Bool.eq_not_of_ne agree]
      cases negative
      · simp only [Bool.not_false, if_true, Bool.false_eq_true, if_false, sub_neg_eq_add]
        exact abs_of_nonneg (by linarith)
      · simp only [Bool.not_true, if_true, Bool.false_eq_true, if_false]
        rw [abs_of_nonpos (by linarith)]
        ring
    have size := magnitudeValue_nonneg other.magnitude
    rw [away]
    refine ⟨by linarith, fun equidistant => .inr ?_⟩
    rcases tie (by linarith) with rfl | even
    · exact Even.zero
    · exact even

end PracticeGrammar.Binary64
