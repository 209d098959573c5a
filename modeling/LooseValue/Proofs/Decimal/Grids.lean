import LooseValue.Proofs.Decimal.Shortest

/-!
# Grids that the search passes over

The search for the shortest decimal ends on the first grid on which a neighbour of the number rounds
to it, so no coarser grid has such a neighbour. A digit zero at the end would be a hit on the next
coarser grid: there is none. And an integer is a point of the grid of the units, which the search
therefore does not pass: the shortest decimal of an integer has no fraction, and conversely a whole
decimal can only round to an integer.
-/

set_option autoImplicit false

namespace LooseValue

namespace RoundingInterval

variable {interval : RoundingInterval}

/-- The neighbours of the number on a grid. -/
def Beside (interval : RoundingInterval) (fineness digits : Nat) : Prop :=
  digits = interval.center / 10 ^ fineness ∨ digits = interval.center / 10 ^ fineness + 1

/-- A decimal on the grid of a fineness where the search, from a coarser one on, finds its first
hit. -/
structure FirstHit (interval : RoundingInterval) (start fineness : Nat) (d : Decimal) : Prop where
  within : fineness ≤ start
  exponent : d.exponent = interval.exponent + fineness
  beside : interval.Beside fineness d.digits
  inside : interval.contains (d.digits * 10 ^ fineness) = true
  passed : ∀ coarser digits, fineness < coarser → coarser ≤ start →
    interval.Beside coarser digits → interval.contains (digits * 10 ^ coarser) = false

private theorem FirstHit.of_next {start fineness : Nat} {d : Decimal}
    (hit : interval.FirstHit start fineness d)
    (missed : ∀ digits, interval.Beside (start + 1) digits →
      interval.contains (digits * 10 ^ (start + 1)) = false) :
    interval.FirstHit (start + 1) fineness d where
  within := Nat.le_succ_of_le hit.within
  exponent := hit.exponent
  beside := hit.beside
  inside := hit.inside
  passed := by
    intro coarser digits above below beside
    rcases Nat.lt_or_eq_of_le below with less | rfl
    · exact hit.passed coarser digits above (Nat.le_of_lt_succ less) beside
    · exact missed digits beside

/-- A hit where the search starts. -/
theorem FirstHit.at_start {start digits : Nat} (beside : interval.Beside start digits)
    (inside : interval.contains (digits * 10 ^ start) = true) :
    interval.FirstHit start start ⟨digits, interval.exponent + start⟩ where
  within := le_rfl
  exponent := rfl
  beside := beside
  inside := inside
  passed := fun _ _ above below => absurd below (Nat.not_le.mpr above)

private theorem search_firstHit (center : interval.contains interval.center = true) (start : Nat) :
    ∃ fineness, interval.FirstHit start fineness (interval.search start) := by
  fun_induction interval.search start with
  | case1 =>
      have beside : interval.Beside 0 interval.center := .inl (by simp)
      have hit := FirstHit.at_start beside (by simpa using center)
      exact ⟨0, by simpa using hit⟩
  | case2 fineness step below above exponent insideAbove insideBelow nearer =>
      exact ⟨_, .at_start (.inl rfl) insideBelow⟩
  | case3 fineness step below above exponent insideAbove insideBelow farther =>
      exact ⟨_, .at_start (.inr rfl) insideAbove⟩
  | case4 fineness step below above exponent outsideAbove insideBelow =>
      exact ⟨_, .at_start (.inl rfl) insideBelow⟩
  | case5 fineness step below above exponent insideAbove outsideBelow =>
      exact ⟨_, .at_start (.inr rfl) insideAbove⟩
  | case6 fineness step below above outsideAbove outsideBelow ih =>
      obtain ⟨finer, hit⟩ := ih
      refine ⟨finer, hit.of_next ?_⟩
      rintro digits (rfl | rfl)
      · exact outsideBelow
      · exact outsideAbove

private theorem pos_of_contains {units : Nat} (inside : interval.contains units = true)
    (positive : 0 < interval.lower) : 0 < units := by
  unfold contains at inside
  split at inside
  · rw [Bool.and_eq_true, decide_eq_true_eq, decide_eq_true_eq] at inside
    omega
  · rw [Bool.and_eq_true, decide_eq_true_eq, decide_eq_true_eq] at inside
    omega

/-- A last digit zero would have been a hit on the next coarser grid. -/
theorem FirstHit.reduced {start fineness : Nat} {d : Decimal}
    (hit : interval.FirstHit start fineness d) (positive : 0 < interval.lower)
    (wide : interval.center < 10 ^ start) : d.digits % 10 ≠ 0 := by
  intro zero
  obtain ⟨shorter, digits⟩ := Nat.dvd_of_mod_eq_zero zero
  rcases Nat.lt_or_eq_of_le hit.within with finer | rfl
  · have coarser : interval.Beside (fineness + 1) shorter := by
      have quotient : interval.center / 10 ^ (fineness + 1) =
          interval.center / 10 ^ fineness / 10 := by
        rw [Nat.div_div_eq_div_mul, Nat.pow_succ]
      have beside := hit.beside
      unfold Beside at beside ⊢
      omega
    have missed := hit.passed _ _ (Nat.lt_succ_self fineness) finer coarser
    have point : shorter * 10 ^ (fineness + 1) = d.digits * 10 ^ fineness := by
      rw [digits, Nat.pow_succ]
      ring
    rw [point, hit.inside] at missed
    contradiction
  · -- Where the search starts the number is below the first point of the grid.
    have beside := hit.beside
    rw [Beside, Nat.div_eq_of_lt wide] at beside
    have none : d.digits = 0 := by omega
    have point := pos_of_contains hit.inside positive
    rw [none, Nat.zero_mul] at point
    contradiction

/-- A grid of which the number itself is a point is not passed. -/
theorem FirstHit.le_fineness {start fineness places : Nat} {d : Decimal}
    (hit : interval.FirstHit start fineness d)
    (center : interval.contains interval.center = true) (reached : places ≤ start)
    (onGrid : 10 ^ places ∣ interval.center) : places ≤ fineness := by
  by_contra passed
  have missed := hit.passed places _ (Nat.lt_of_not_le passed) reached (.inl rfl)
  rw [Nat.div_mul_cancel onGrid, center] at missed
  contradiction

end RoundingInterval

namespace Binary

variable {w p : Nat} {x y : Binary w p}

private theorem center_pos (nonzero : x.significand ≠ 0) : 0 < x.roundingInterval.center := by
  have positive := magnitude_pos nonzero
  rw [← roundingInterval_center] at positive
  by_contra none
  rw [Nat.eq_zero_of_not_pos none] at positive
  simp at positive

private theorem lower_pos (nonzero : x.significand ≠ 0) : 0 < x.roundingInterval.lower := by
  have lower := roundingInterval_lower nonzero
  have below := unitBelow_le_magnitude nonzero
  have unit := x.unitBelow_pos
  by_contra none
  rw [Nat.eq_zero_of_not_pos none, Nat.cast_zero, zero_mul] at lower
  linarith

/-- Where the search for the shortest decimal starts, and where it ends. -/
theorem shortest_firstHit (nonzero : x.significand ≠ 0) :
    ∃ start fineness, x.roundingInterval.center < 10 ^ start ∧
      (∀ places, 10 ^ places ≤ x.roundingInterval.center → places ≤ start) ∧
      x.roundingInterval.FirstHit start fineness x.shortest := by
  obtain ⟨fineness, hit⟩ := RoundingInterval.search_firstHit (contains_center nonzero)
    (Nat.toDigits 10 x.roundingInterval.center).length
  have wide : x.roundingInterval.center < 10 ^ (Nat.toDigits 10 x.roundingInterval.center).length :=
    (Nat.length_toDigits_le_iff (by omega) Nat.length_toDigits_pos).mp le_rfl
  refine ⟨_, fineness, wide, ?_, hit⟩
  intro places reached
  exact (Nat.pow_lt_pow_iff_right (by omega)).mp (reached.trans_lt wide) |>.le

theorem shortest_reduced (nonzero : x.significand ≠ 0) : x.shortest.digits % 10 ≠ 0 := by
  obtain ⟨start, fineness, wide, _, hit⟩ := shortest_firstHit nonzero
  exact hit.reduced (lower_pos nonzero) wide

/-! ## Integers -/

/-- The shortest decimal of an integer is whole. -/
theorem shortest_exponent_nonneg (nonzero : x.significand ≠ 0) {k : Nat}
    (integral : x.magnitude = k) : 0 ≤ x.shortest.exponent := by
  obtain ⟨start, fineness, _, reached, hit⟩ := shortest_firstHit nonzero
  have fractional : x.roundingInterval.exponent ≤ 0 := Int.min_le_right ..
  obtain ⟨places, exponent⟩ : ∃ places : Nat, x.roundingInterval.exponent = -(places : Int) :=
    ⟨x.roundingInterval.exponent.natAbs, by omega⟩
  have center : x.roundingInterval.center = k * 10 ^ places := by
    have value := x.roundingInterval_center
    rw [integral, exponent, zpow_neg, zpow_natCast, ← div_eq_mul_inv,
      div_eq_iff (by positivity)] at value
    exact_mod_cast value
  have onGrid : 10 ^ places ∣ x.roundingInterval.center := ⟨k, by rw [center, Nat.mul_comm]⟩
  have finer := hit.le_fineness (contains_center nonzero)
    (reached places (Nat.le_of_dvd (center_pos nonzero) onGrid)) onGrid
  rw [hit.exponent, exponent]
  omega

/-- A whole decimal is a point of the grid of a number with a fraction, and its nearest point on that
grid is the number. -/
theorem magnitude_eq_of_encloses {k : Nat} (encloses : x.Encloses k) (fractional : x.scale ≤ 0) :
    x.magnitude = k := by
  have unit := x.unit_pos
  have narrowed : x.unitBelow ≤ x.unit := by
    unfold unitBelow
    split <;> linarith
  obtain ⟨n, scaled⟩ : ∃ n : Nat, (k : ℚ) = n * x.unit := by
    have whole := zpow_eq_mul fractional
    refine ⟨k * 2 ^ (0 - x.scale).toNat, ?_⟩
    rw [zpow_zero] at whole
    rw [Nat.cast_mul, mul_assoc, Binary.unit, ← whole, mul_one]
  have lower := encloses.lower
  have upper := encloses.upper
  rw [scaled, magnitude] at lower upper
  have near : x.significand = n := by
    have least : ((x.significand : ℚ) - 1) * x.unit < n * x.unit := by linarith
    have greatest : (n : ℚ) * x.unit < (x.significand + 1) * x.unit := by linarith
    have above : (x.significand : ℚ) - 1 < n := lt_of_mul_lt_mul_right least unit.le
    have below : (n : ℚ) < x.significand + 1 := lt_of_mul_lt_mul_right greatest unit.le
    have above : x.significand < n + 1 := by
      have cast : (x.significand : ℚ) < n + 1 := by linarith
      exact_mod_cast cast
    have below : n < x.significand + 1 := by exact_mod_cast below
    omega
  rw [scaled, magnitude, near]

private theorem exists_magnitude_eq (nonzero : x.significand ≠ 0)
    (whole : 0 ≤ x.shortest.exponent) :
    ∃ k : Nat, x.magnitude = k := by
  rcases le_or_gt 0 x.scale with integral | fractional
  · refine ⟨x.significand * 2 ^ x.scale.toNat, ?_⟩
    rw [magnitude, unit, zpow_eq_mul integral, sub_zero, zpow_zero, mul_one, Nat.cast_mul]
  · have encloses := shortest_encloses nonzero
    have value : x.shortest.toRat = (x.shortest.digits * 10 ^ x.shortest.exponent.toNat : Nat) := by
      rw [Decimal.toRat, Nat.cast_mul, Nat.cast_pow, Nat.cast_ofNat, ← zpow_natCast,
        Int.toNat_of_nonneg whole]
    rw [value] at encloses
    exact ⟨_, magnitude_eq_of_encloses encloses fractional.le⟩

/-- A number is an integer just if its shortest decimal is whole. -/
theorem integral_iff_shortest (nonzero : x.significand ≠ 0) :
    (∃ k : Nat, x.magnitude = k) ↔ 0 ≤ x.shortest.exponent :=
  ⟨fun ⟨_, integral⟩ => shortest_exponent_nonneg nonzero integral, exists_magnitude_eq nonzero⟩

end Binary

end LooseValue
