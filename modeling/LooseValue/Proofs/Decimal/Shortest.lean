import LooseValue.Proofs.Number.Rounding

/-!
# Shortest decimals round back

The search for the shortest decimal ends at a point of the rounding interval, on whatever grid it
ends: the number itself is the last candidate. The interval is counted in quarters of a decimal unit,
and in these units its ends are exactly half the gaps to the neighbours away.
-/

set_option autoImplicit false

namespace LooseValue

def Decimal.toRat (d : Decimal) : ℚ := d.digits * 10 ^ d.exponent

namespace RoundingInterval

/-- A decimal that is a whole number of units in the interval. -/
def Hits (interval : RoundingInterval) (d : Decimal) : Prop :=
  ∃ units, interval.contains units = true ∧ d.toRat = units * 10 ^ interval.exponent

variable {interval : RoundingInterval}

private theorem hits_of_contains {digits fineness : Nat}
    (inside : interval.contains (digits * Nat.pow 10 fineness) = true) :
    interval.Hits ⟨digits, interval.exponent + fineness⟩ := by
  refine ⟨_, inside, ?_⟩
  rw [Decimal.toRat, zpow_add₀ (by norm_num), zpow_natCast, Nat.pow_eq]
  push_cast
  ring

private theorem search_hits (center : interval.contains interval.center = true) (fineness : Nat) :
    interval.Hits (interval.search fineness) := by
  fun_induction interval.search fineness with
  | case1 => exact ⟨_, center, rfl⟩
  | case2 fineness step below above exponent insideAbove insideBelow nearer =>
      exact hits_of_contains insideBelow
  | case3 fineness step below above exponent insideAbove insideBelow farther =>
      exact hits_of_contains insideAbove
  | case4 fineness step below above exponent outsideAbove insideBelow =>
      exact hits_of_contains insideBelow
  | case5 fineness step below above exponent insideAbove outsideBelow =>
      exact hits_of_contains insideAbove
  | case6 fineness step below above outsideAbove outsideBelow ih => exact ih

end RoundingInterval

namespace Binary

variable {w p : Nat} {x : Binary w p}

/-- The number of decimal units in the last place of a significand. -/
def decimalUnits (q : Int) : Nat := if 0 ≤ q then 2 ^ q.toNat else 5 ^ (-q).toNat

private theorem decimalUnits_mul (q : Int) : (decimalUnits q : ℚ) * 10 ^ min q 0 = 2 ^ q := by
  unfold decimalUnits
  split
  · next whole =>
      rw [min_eq_right whole, zpow_zero, mul_one, Nat.cast_pow, Nat.cast_ofNat, ← zpow_natCast,
        Int.toNat_of_nonneg whole]
  · next fractional =>
      rw [min_eq_left (by omega), Nat.cast_pow, Nat.cast_ofNat, ← zpow_natCast,
        Int.toNat_of_nonneg (by omega), zpow_neg, ← inv_zpow, ← mul_zpow]
      norm_num

theorem roundingInterval_center (x : Binary w p) :
    (x.roundingInterval.center : ℚ) * 10 ^ x.roundingInterval.exponent = x.magnitude := by
  have units := decimalUnits_mul x.scale
  simp only [roundingInterval, RoundingInterval.ofScaled, magnitude, unit, ← units, decimalUnits,
    Nat.pow_eq]
  push_cast
  ring

theorem roundingInterval_lower (nonzero : x.significand ≠ 0) :
    (x.roundingInterval.lower : ℚ) * 10 ^ x.roundingInterval.exponent =
      4 * (x.magnitude - x.unitBelow / 2) := by
  have units := decimalUnits_mul x.scale
  simp only [roundingInterval, RoundingInterval.ofScaled, magnitude, unitBelow, unit, ← units,
    decimalUnits, Nat.pow_eq]
  by_cases narrow : x.isNarrow
  · simp only [narrow, if_true]
    rw [Nat.cast_mul, Nat.cast_sub (by omega)]
    push_cast
    ring
  · simp only [narrow]
    rw [if_neg Bool.false_ne_true, if_neg Bool.false_ne_true, Nat.cast_mul, Nat.cast_sub (by omega)]
    push_cast
    ring

private theorem roundingInterval_upper (x : Binary w p) :
    (x.roundingInterval.upper : ℚ) * 10 ^ x.roundingInterval.exponent =
      4 * (x.magnitude + x.unit / 2) := by
  have units := decimalUnits_mul x.scale
  simp only [roundingInterval, RoundingInterval.ofScaled, magnitude, unit, ← units, decimalUnits,
    Nat.pow_eq]
  push_cast
  ring

private theorem roundingInterval_closed (x : Binary w p) :
    x.roundingInterval.closed = true ↔ x.significand % 2 = 0 := by
  simp [roundingInterval, RoundingInterval.ofScaled]

/-- The ends of the interval as whole numbers of quarters, and as the midpoints between neighbours. -/
theorem encloses_of_contains {units : Nat} (nonzero : x.significand ≠ 0)
    (inside : x.roundingInterval.contains units = true) :
    x.Encloses (units * 10 ^ x.roundingInterval.exponent) := by
  have ten : (0 : ℚ) < 10 ^ x.roundingInterval.exponent := by positivity
  have lower := roundingInterval_lower nonzero
  have upper := x.roundingInterval_upper
  unfold RoundingInterval.contains at inside
  by_cases closed : x.roundingInterval.closed = true
  · rw [if_pos closed, Bool.and_eq_true, decide_eq_true_eq, decide_eq_true_eq] at inside
    have low : (x.roundingInterval.lower : ℚ) ≤ 4 * units := by exact_mod_cast inside.1
    have high : (4 * units : ℚ) ≤ x.roundingInterval.upper := by exact_mod_cast inside.2
    have scaledLow := mul_le_mul_of_nonneg_right low ten.le
    have scaledHigh := mul_le_mul_of_nonneg_right high ten.le
    refine ⟨by linarith, by linarith, fun _ => (x.roundingInterval_closed).mp closed⟩
  · rw [if_neg closed, Bool.and_eq_true, decide_eq_true_eq, decide_eq_true_eq] at inside
    have low : (x.roundingInterval.lower : ℚ) < 4 * units := by exact_mod_cast inside.1
    have high : (4 * units : ℚ) < x.roundingInterval.upper := by exact_mod_cast inside.2
    have scaledLow := mul_lt_mul_of_pos_right low ten
    have scaledHigh := mul_lt_mul_of_pos_right high ten
    refine ⟨by linarith, by linarith, ?_⟩
    rintro (isEnd | isEnd)
    · exfalso
      linarith
    · exfalso
      linarith

theorem contains_center (nonzero : x.significand ≠ 0) :
    x.roundingInterval.contains x.roundingInterval.center = true := by
  have ten : (0 : ℚ) < 10 ^ x.roundingInterval.exponent := by positivity
  have lower := roundingInterval_lower nonzero
  have upper := x.roundingInterval_upper
  have center := x.roundingInterval_center
  have below := x.unitBelow_pos
  have above := x.unit_pos
  have low : x.roundingInterval.lower < 4 * x.roundingInterval.center := by
    have cast : (x.roundingInterval.lower : ℚ) < 4 * x.roundingInterval.center := by
      refine lt_of_mul_lt_mul_right ?_ ten.le
      linarith
    exact_mod_cast cast
  have high : 4 * x.roundingInterval.center < x.roundingInterval.upper := by
    have cast : (4 * x.roundingInterval.center : ℚ) < x.roundingInterval.upper := by
      refine lt_of_mul_lt_mul_right ?_ ten.le
      linarith
    exact_mod_cast cast
  unfold RoundingInterval.contains
  split
  · rw [Bool.and_eq_true, decide_eq_true_eq, decide_eq_true_eq]
    exact ⟨low.le, high.le⟩
  · rw [Bool.and_eq_true, decide_eq_true_eq, decide_eq_true_eq]
    exact ⟨low, high⟩

theorem shortest_encloses (nonzero : x.significand ≠ 0) : x.Encloses x.shortest.toRat := by
  obtain ⟨units, inside, value⟩ := RoundingInterval.search_hits (contains_center nonzero)
    (Nat.toDigits 10 x.roundingInterval.center).length
  rw [shortest, RoundingInterval.shortest, value]
  exact encloses_of_contains nonzero inside

end Binary

end LooseValue
