import Mathlib.Algebra.Order.Ring.Abs
import Mathlib.Tactic.NormNum
import PracticeGrammar.Binary64.Rounding
import PracticeGrammar.Proofs.BinaryValues

/-! Rounding is correct: the number that is computed for a quotient or for a decimal is nearest to
its exact value. The significand is rounded on a grid that is fine enough at the value; below the
binade of the value the grid is finer, but no point there is nearer than the first of the binade. -/

namespace PracticeGrammar.Binary64

private theorem quotient_eq {numerator denominator : Nat} (positive : 0 < denominator) :
    (numerator : ℚ) / denominator =
      (numerator / denominator : Nat) + (numerator % denominator : Nat) / (denominator : ℚ) := by
  have unit : (denominator : ℚ) ≠ 0 := by positivity
  have whole := Nat.div_add_mod numerator denominator
  field_simp
  exact_mod_cast whole.symm

theorem roundHalfEven_near {numerator denominator : Nat} (positive : 0 < denominator) :
    |(numerator : ℚ) / denominator - roundHalfEven numerator denominator| ≤ 1 / 2 ∧
      (|(numerator : ℚ) / denominator - roundHalfEven numerator denominator| = 1 / 2 →
        Even (roundHalfEven numerator denominator)) := by
  rw [quotient_eq positive]
  have unit : (0 : ℚ) < denominator := by exact_mod_cast positive
  have small := Nat.mod_lt numerator positive
  unfold roundHalfEven
  dsimp only
  generalize numerator / denominator = floor
  generalize numerator % denominator = rest at *
  have nonneg : (0 : ℚ) ≤ rest / denominator := by positivity
  split_ifs with down up
  · have below : (rest : ℚ) / denominator < 1 / 2 := by
      rw [div_lt_div_iff₀ unit two_pos]
      exact_mod_cast (by omega : rest * 2 < 1 * denominator)
    rw [add_sub_cancel_left, abs_of_nonneg nonneg]
    exact ⟨below.le, fun tie => absurd tie below.ne⟩
  · have above : 1 / 2 < (rest : ℚ) / denominator := by
      rw [div_lt_div_iff₀ two_pos unit]
      exact_mod_cast (by omega : 1 * denominator < rest * 2)
    have below : (rest : ℚ) / denominator < 1 := by
      rw [div_lt_one unit]
      exact_mod_cast small
    push_cast
    rw [abs_of_nonpos (by linarith)]
    exact ⟨by linarith, fun tie => by linarith⟩
  · have half : (rest : ℚ) / denominator = 1 / 2 := by
      rw [div_eq_div_iff unit.ne' two_ne_zero]
      exact_mod_cast (by omega : rest * 2 = 1 * denominator)
    have even : Even (floor + floor % 2) := by
      rw [Nat.even_iff]
      omega
    refine ⟨?_, fun _ => even⟩
    rw [half]
    rcases Nat.mod_two_eq_zero_or_one floor with parity | parity <;> rw [parity] <;> push_cast <;>
      rw [abs_le] <;> constructor <;> linarith

/-- A point of a grid within half a unit of a value is the nearest one. -/
private theorem grid_nearest {exact unit : ℚ} (positive : 0 < unit) {near : Nat}
    (within : |exact - near * unit| ≤ unit / 2) (even : |exact - near * unit| = unit / 2 → Even near)
    (other : Nat) :
    |exact - near * unit| ≤ |exact - other * unit| ∧
      (|exact - near * unit| = |exact - other * unit| → other = near ∨ Even near) := by
  by_cases same : other = near
  · subst same
    exact ⟨le_rfl, fun _ => .inl rfl⟩
  · have apart : unit ≤ |(near : ℚ) * unit - other * unit| := by
      rw [← sub_mul, abs_mul, abs_of_pos positive]
      have distinct : (1 : ℚ) ≤ |(near : ℚ) - other| := by
        have integral : (1 : ℤ) ≤ |(near : ℤ) - other| := Int.one_le_abs (by omega)
        exact_mod_cast integral
      nlinarith
    have triangle : |(near : ℚ) * unit - other * unit| ≤ |exact - near * unit| + |exact - other * unit| := by
      have split := abs_sub_le ((near : ℚ) * unit) exact (other * unit)
      rwa [abs_sub_comm _ exact] at split
    exact ⟨by linarith, fun equidistant => .inr (even (by linarith))⟩

section Significand
variable {exact : ℚ} {exponent significand : Nat}

/-- A significand within half a unit gives the nearest magnitude of all, if the unit is that of the
binade of the value. -/
theorem magnitude_nearest (bound : significand ≤ 2 * binade)
    (normal : exponent = 0 ∨ (binade : ℚ) * 2 ^ ((exponent : ℤ) - 1074) ≤ exact)
    (within : |exact - significand * 2 ^ ((exponent : ℤ) - 1074)| ≤ 2 ^ ((exponent : ℤ) - 1074) / 2)
    (even : |exact - significand * 2 ^ ((exponent : ℤ) - 1074)| = 2 ^ ((exponent : ℤ) - 1074) / 2 →
      Even significand) (other : Nat) :
    |exact - magnitudeValue (exponent * binade + significand)| ≤ |exact - magnitudeValue other| ∧
      (|exact - magnitudeValue (exponent * binade + significand)| = |exact - magnitudeValue other| →
        other = exponent * binade + significand ∨ Even (exponent * binade + significand)) := by
  have unit : (0 : ℚ) < 2 ^ ((exponent : ℤ) - 1074) := by positivity
  have full : exponent = 0 ∨ binade ≤ significand := by
    refine normal.imp_right fun reached => ?_
    have close := (abs_le.mp within).2
    have below : (binade : ℚ) < significand + 1 := by nlinarith
    exact Nat.le_of_lt_succ (by exact_mod_cast below)
  have parity : Even (exponent * binade + significand) ↔ Even significand := by
    unfold binade
    rw [Nat.even_iff, Nat.even_iff]
    omega
  have valued := magnitudeValue_eq bound full
  obtain ⟨otherExponent, otherSignificand, rfl, otherBound, otherFull⟩ := exists_significand other
  have otherValued := magnitudeValue_eq otherBound.le otherFull
  rw [valued, otherValued, parity]
  by_cases finer : otherExponent < exponent
  · -- The other magnitude lies below the first one of the binade, and that is no nearer either.
    have reached := normal.resolve_left (by omega)
    obtain ⟨closer, _⟩ := grid_nearest unit within even binade
    have otherUnit : (2 : ℚ) * 2 ^ ((otherExponent : ℤ) - 1074) ≤ 2 ^ ((exponent : ℤ) - 1074) := by
      rw [mul_comm, ← zpow_add_one₀ two_ne_zero]
      exact zpow_le_zpow_right₀ one_le_two (by omega)
    have below : (otherSignificand : ℚ) * 2 ^ ((otherExponent : ℤ) - 1074) <
        binade * 2 ^ ((exponent : ℤ) - 1074) := by
      have positive : (0 : ℚ) < 2 ^ ((otherExponent : ℤ) - 1074) := by positivity
      have cast : (otherSignificand : ℚ) < 2 * binade := by exact_mod_cast otherBound
      have size : (0 : ℚ) < binade := by norm_num [binade]
      nlinarith
    rw [abs_of_nonneg (by linarith : 0 ≤ exact - (binade : ℚ) * _)] at closer
    rw [abs_of_nonneg (by linarith : 0 ≤ exact - (otherSignificand : ℚ) * _)]
    exact ⟨by linarith, fun equidistant => by linarith⟩
  · -- The other magnitude is on the same grid.
    have coarser : (otherSignificand : ℚ) * 2 ^ ((otherExponent : ℤ) - 1074) =
        (otherSignificand * 2 ^ (otherExponent - exponent) : Nat) * 2 ^ ((exponent : ℤ) - 1074) := by
      have split : (otherExponent : ℤ) - 1074 =
          ((otherExponent - exponent : Nat) : ℤ) + ((exponent : ℤ) - 1074) := by omega
      rw [split, zpow_add₀ two_ne_zero, zpow_natCast]
      push_cast
      ring
    obtain ⟨closer, tie⟩ := grid_nearest unit within even
      (otherSignificand * 2 ^ (otherExponent - exponent))
    rw [← coarser] at closer tie
    refine ⟨closer, fun equidistant => (tie equidistant).imp_left fun same => ?_⟩
    apply magnitudeValue_strictMono.injective
    rw [otherValued, valued, coarser, same]

end Significand

/-- What is nearest of all magnitudes is, cut off at infinity, nearest among those up to it. -/
private theorem capped {exact : ℚ} {magnitude : Nat}
    (nearest : ∀ other, |exact - magnitudeValue magnitude| ≤ |exact - magnitudeValue other| ∧
      (|exact - magnitudeValue magnitude| = |exact - magnitudeValue other| →
        other = magnitude ∨ Even magnitude)) :
    IsNearestMagnitude exact (min magnitude infinityMagnitude) := by
  rcases le_or_gt magnitude infinityMagnitude with inside | beyond
  · rw [min_eq_left inside]
    exact ⟨inside, fun other _ => nearest other⟩
  · rw [min_eq_right beyond.le]
    refine ⟨le_rfl, fun other bound => ?_⟩
    have above := magnitudeValue_strictMono beyond
    have closer := (nearest infinityMagnitude).1
    have below : magnitudeValue infinityMagnitude < exact := by
      by_contra notBelow
      rw [abs_of_nonpos (by linarith), abs_of_nonpos (by linarith)] at closer
      linarith
    have ordered := magnitudeValue_strictMono.monotone bound
    rw [abs_of_nonneg (by linarith), abs_of_nonneg (by linarith)]
    refine ⟨by linarith, fun equidistant => .inl ?_⟩
    exact magnitudeValue_strictMono.injective (by linarith)

private theorem shifted_quotient (numerator denominator : Nat) (exponent : ℤ) :
    ((numerator <<< (-exponent).toNat : Nat) : ℚ) / (denominator <<< exponent.toNat : Nat) =
      numerator / denominator / 2 ^ exponent := by
  have split : (2 : ℚ) ^ exponent = 2 ^ exponent.toNat / 2 ^ (-exponent).toNat := by
    rw [← zpow_natCast, ← zpow_natCast, ← zpow_sub₀ two_ne_zero]
    congr 1
    omega
  rw [split, Nat.shiftLeft_eq, Nat.shiftLeft_eq]
  push_cast
  field_simp

private theorem shifted_pos {denominator : Nat} (unit : 0 < denominator) (places : Nat) :
    0 < denominator <<< places := by
  rw [Nat.shiftLeft_eq]
  positivity

private theorem log2_bounds {number : Nat} (positive : 0 < number) :
    (2 : ℚ) ^ (number.log2 : ℤ) ≤ number ∧ (number : ℚ) < 2 ^ ((number.log2 : ℤ) + 1) := by
  constructor
  · exact_mod_cast Nat.log2_self_le positive.ne'
  · exact_mod_cast Nat.lt_log2_self

/-- The binary exponent of a quotient brackets it between two powers of two. -/
theorem quotientLog2_bounds {numerator denominator : Nat} (positive : 0 < numerator)
    (unit : 0 < denominator) :
    (2 : ℚ) ^ quotientLog2 numerator denominator ≤ numerator / denominator ∧
      (numerator : ℚ) / denominator < 2 ^ (quotientLog2 numerator denominator + 1) := by
  obtain ⟨numeratorLow, numeratorHigh⟩ := log2_bounds positive
  obtain ⟨denominatorLow, denominatorHigh⟩ := log2_bounds unit
  have size : (0 : ℚ) < denominator := by exact_mod_cast unit
  unfold quotientLog2
  dsimp only
  generalize guessed : (numerator.log2 : ℤ) - denominator.log2 = guess
  have above : (numerator : ℚ) / denominator < 2 ^ (guess + 1) := by
    rw [div_lt_iff₀ size]
    calc (numerator : ℚ) < 2 ^ ((numerator.log2 : ℤ) + 1) := numeratorHigh
      _ = 2 ^ (guess + 1) * 2 ^ (denominator.log2 : ℤ) := by
        rw [← zpow_add₀ two_ne_zero]
        congr 1
        omega
      _ ≤ 2 ^ (guess + 1) * denominator := by gcongr
  have below : (2 : ℚ) ^ (guess - 1) ≤ numerator / denominator := by
    rw [le_div_iff₀ size]
    calc (2 : ℚ) ^ (guess - 1) * denominator
        ≤ 2 ^ (guess - 1) * 2 ^ ((denominator.log2 : ℤ) + 1) := by gcongr
      _ = 2 ^ (numerator.log2 : ℤ) := by
        rw [← zpow_add₀ two_ne_zero]
        congr 1
        omega
      _ ≤ numerator := numeratorLow
  have compared : denominator <<< guess.toNat ≤ numerator <<< (-guess).toNat ↔
      (2 : ℚ) ^ guess ≤ numerator / denominator := by
    have shifted : (0 : ℚ) < (denominator <<< guess.toNat : Nat) := by
      exact_mod_cast shifted_pos unit guess.toNat
    rw [← one_le_div₀ (by positivity : (0 : ℚ) < 2 ^ guess), ← shifted_quotient,
      one_le_div₀ shifted, Nat.cast_le]
  split_ifs with reached
  · exact ⟨compared.mp reached, above⟩
  · rw [compared, not_le] at reached
    rw [sub_add_cancel]
    exact ⟨below, reached⟩

theorem nearestMagnitude_nearest (numerator : Nat) {denominator : Nat} (unit : 0 < denominator) :
    IsNearestMagnitude (numerator / denominator) (nearestMagnitude numerator denominator) := by
  unfold nearestMagnitude
  split_ifs with zero
  · subst zero
    refine ⟨Nat.zero_le _, fun other _ => ⟨?_, fun _ => .inr Even.zero⟩⟩
    simp [magnitudeValue_zero]
  · obtain ⟨low, high⟩ := quotientLog2_bounds (Nat.pos_of_ne_zero zero) unit
    dsimp only
    generalize quotientLog2 numerator denominator = log at *
    generalize chosen : max (log - 52) (-1074) = exponent
    have scale : (0 : ℚ) < 2 ^ exponent := by positivity
    have same : (((exponent + 1074).toNat : Nat) : ℤ) - 1074 = exponent := by omega
    obtain ⟨near, even⟩ :=
      @roundHalfEven_near (numerator <<< (-exponent).toNat) _ (shifted_pos unit exponent.toNat)
    rw [shifted_quotient] at near even
    generalize roundHalfEven _ _ = significand at *
    have distance : |(numerator : ℚ) / denominator - significand * 2 ^ exponent| =
        |(numerator : ℚ) / denominator / 2 ^ exponent - significand| * 2 ^ exponent := by
      rw [← abs_of_pos scale, ← abs_mul, abs_of_pos scale]
      congr 1
      field_simp
    have top : (numerator : ℚ) / denominator / 2 ^ exponent < 2 * binade := by
      rw [div_lt_iff₀ scale]
      calc (numerator : ℚ) / denominator < 2 ^ (log + 1) := high
        _ ≤ 2 ^ (53 + exponent) := zpow_le_zpow_right₀ one_le_two (by omega)
        _ = 2 * binade * 2 ^ exponent := by
          rw [zpow_add₀ two_ne_zero]
          norm_num [binade]
    apply capped
    apply magnitude_nearest
    · have below : (significand : ℚ) < 2 * binade + 1 := by linarith [(abs_le.mp near).1]
      exact Nat.le_of_lt_succ (by exact_mod_cast below)
    · rw [same]
      by_cases lowest : exponent = -1074
      · exact .inl (by omega)
      · refine .inr (le_trans (le_of_eq ?_) low)
        rw [show log = 52 + exponent by omega, zpow_add₀ two_ne_zero]
        norm_num [binade]
    · rw [same, distance]
      nlinarith
    · rw [same, distance]
      intro tie
      refine even (mul_right_cancel₀ scale.ne' ?_)
      linarith

def decimalValue (digits : Nat) (exponent : ℤ) : ℚ := digits * 10 ^ exponent

private theorem nearest_zero {exact : ℚ} (nonneg : 0 ≤ exact) (small : exact < 2 ^ (-1075 : ℤ)) :
    IsNearestMagnitude exact 0 := by
  refine ⟨Nat.zero_le _, fun other _ => ⟨?_, fun _ => .inr Even.zero⟩⟩
  rw [magnitudeValue_zero, sub_zero, abs_of_nonneg nonneg]
  rcases Nat.eq_zero_or_pos other with rfl | positive
  · rw [magnitudeValue_zero, sub_zero, abs_of_nonneg nonneg]
  · have least : magnitudeValue 1 ≤ magnitudeValue other :=
      magnitudeValue_strictMono.monotone positive
    have twice : (2 : ℚ) ^ (-1074 : ℤ) = 2 * 2 ^ (-1075 : ℤ) := by
      rw [mul_comm, ← zpow_add_one₀ two_ne_zero]
      norm_num
    rw [magnitudeValue_one, twice] at least
    rw [abs_of_nonpos (by linarith)]
    linarith

private theorem nearest_infinity {exact : ℚ} (large : 2 ^ (1024 : ℤ) ≤ exact) :
    IsNearestMagnitude exact infinityMagnitude := by
  refine ⟨le_rfl, fun other bound => ?_⟩
  have ordered := magnitudeValue_strictMono.monotone bound
  rw [← magnitudeValue_infinity] at large
  rw [abs_of_nonneg (by linarith), abs_of_nonneg (by linarith)]
  refine ⟨by linarith, fun equidistant => .inl ?_⟩
  exact magnitudeValue_strictMono.injective (by linarith)

private theorem ten_zpow (exponent : ℤ) :
    (10 : ℚ) ^ exponent = 10 ^ exponent.toNat / 10 ^ (-exponent).toNat := by
  rw [← zpow_natCast, ← zpow_natCast, ← zpow_sub₀ (by norm_num)]
  congr 1
  omega

/-- Ten is more than eight, so a negative power of ten is at most that power of eight. -/
private theorem ten_zpow_le {exponent : ℤ} (negative : exponent ≤ 0) :
    (10 : ℚ) ^ exponent ≤ 2 ^ (3 * exponent) := by
  obtain ⟨places, rfl⟩ : ∃ places : Nat, exponent = -(places : ℤ) :=
    ⟨exponent.natAbs, by omega⟩
  have powers : (8 : ℚ) ^ places ≤ 10 ^ places := pow_le_pow_left₀ (by norm_num) (by norm_num) places
  have eight : (2 : ℚ) ^ (3 : ℤ) = 8 := by norm_num
  rw [zpow_mul, eight, zpow_neg, zpow_neg, zpow_natCast, zpow_natCast]
  exact inv_anti₀ (by positivity) powers

private theorem infinity_le_ten_zpow : (2 : ℚ) ^ (1024 : ℤ) ≤ 10 ^ (310 : ℤ) := by
  have bound : 2 ^ 1024 ≤ 10 ^ 310 := by decide +kernel
  exact_mod_cast bound

theorem decimalMagnitude_nearest (digits : Nat) (exponent : ℤ) :
    IsNearestMagnitude (decimalValue digits exponent) (decimalMagnitude digits exponent) := by
  unfold decimalMagnitude decimalValue
  split_ifs with zero large small
  · subst zero
    simpa using nearest_zero le_rfl (by positivity)
  · apply nearest_infinity
    have one : (1 : ℚ) ≤ digits := by exact_mod_cast Nat.pos_of_ne_zero zero
    calc (2 : ℚ) ^ (1024 : ℤ) ≤ 10 ^ (310 : ℤ) := infinity_le_ten_zpow
      _ ≤ 10 ^ exponent := zpow_le_zpow_right₀ (by norm_num) large
      _ ≤ digits * 10 ^ exponent := le_mul_of_one_le_left (by positivity) one
  · apply nearest_zero (by positivity)
    obtain ⟨_, high⟩ := log2_bounds (Nat.pos_of_ne_zero zero)
    have power := @ten_zpow_le exponent (by omega)
    calc (digits : ℚ) * 10 ^ exponent
        ≤ 2 ^ ((digits.log2 : ℤ) + 1) * 2 ^ (3 * exponent) := by gcongr
      _ = 2 ^ ((digits.log2 : ℤ) + 1 + 3 * exponent) := (zpow_add₀ two_ne_zero _ _).symm
      _ < 2 ^ (-1075 : ℤ) := zpow_lt_zpow_right₀ one_lt_two (by omega)
  · have scaled : (digits : ℚ) * 10 ^ exponent =
        (digits * 10 ^ exponent.toNat : Nat) / (10 ^ (-exponent).toNat : Nat) := by
      rw [ten_zpow]
      push_cast
      ring
    have unit : 0 < 10 ^ (-exponent).toNat := by positivity
    rw [scaled]
    exact nearestMagnitude_nearest _ unit

/-- Reading a decimal is correctly rounded. -/
theorem ofDecimal_nearest (negative : Bool) (digits : Nat) (exponent : ℤ) :
    IsNearest (if negative then -decimalValue digits exponent else decimalValue digits exponent)
      (ofDecimal negative digits exponent) := by
  have nonneg : 0 ≤ decimalValue digits exponent := by
    unfold decimalValue
    positivity
  exact isNearest_ofMagnitude nonneg (decimalMagnitude_nearest digits exponent)

theorem ofInt_nearest (value : ℤ) : IsNearest value (ofInt value) := by
  have near := nearestMagnitude_nearest value.natAbs one_pos
  rw [Nat.cast_one, div_one] at near
  have found := @isNearest_ofMagnitude _ _ (decide (value < 0)) (Nat.cast_nonneg _) near
  have exact : (if decide (value < 0) = true then -(value.natAbs : ℚ) else value.natAbs) = value := by
    rw [Nat.cast_natAbs]
    by_cases negative : value < 0
    · simp [negative, abs_of_neg negative]
    · simp [negative, abs_of_nonneg (not_lt.mp negative)]
  rwa [exact] at found

end PracticeGrammar.Binary64
