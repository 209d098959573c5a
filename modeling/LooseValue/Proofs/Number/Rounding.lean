import Mathlib.Algebra.Order.Field.Power
import Mathlib.Algebra.Order.Ring.Rat
import Mathlib.Tactic.Linarith
import Mathlib.Tactic.Positivity
import Mathlib.Tactic.Ring
import LooseValue.Decimal.Shortest

/-!
# Rounding to the nearest number

The value of a number is plus or minus its significand times a power of two. A rational rounds to the
nearest number, and to the one with the even significand where two are equally near. An infinity
takes part in this with the value that the next exponent would begin at.

The numbers around a given one are a unit apart above it, and a unit or, at the bottom of a binade,
half a unit below it. So whatever lies within half of these gaps rounds to the number and to no other,
the ends included where the significand is even: the significand of a neighbour is odd then.
-/

set_option autoImplicit false

namespace LooseValue

/-- The positive or negative number of a magnitude. -/
def withSign (negative : Bool) (magnitude : ℚ) : ℚ := if negative then -magnitude else magnitude

namespace Binary

variable {w p : Nat}

/-- The value of the last place of the significand. -/
def unit (x : Binary w p) : ℚ := 2 ^ x.scale

/-- How far below the next number is, in magnitude. -/
def unitBelow (x : Binary w p) : ℚ := if x.isNarrow then x.unit / 2 else x.unit

def magnitude (x : Binary w p) : ℚ := x.significand * x.unit

/-- The exact value; that of an infinity is where the next exponent would begin. -/
def toRat (x : Binary w p) : ℚ := withSign x.negative x.magnitude

/-- No number is nearer to the rational, and where another one is as near the significand is even. -/
structure RoundsTo (v : ℚ) (x : Binary w p) : Prop where
  number : x.isNaN = false
  nearest : ∀ y : Binary w p, y.isNaN = false → |v - x.toRat| ≤ |v - y.toRat|
  even : ∀ y : Binary w p, y.isNaN = false → |v - y.toRat| = |v - x.toRat| → y.toRat ≠ x.toRat →
    x.significand % 2 = 0

/-! ## Fields -/

variable {x y : Binary w p}

/-- The scale of the numbers below the normal range. -/
def lowestScale (w p : Nat) : Int := 1 - ((bias w + p : Nat) : Int)

private theorem lowestScale_le (x : Binary w p) : lowestScale w p ≤ x.scale := by
  unfold lowestScale scale
  omega

theorem significand_lt (x : Binary w p) : x.significand < 2 ^ (p + 1) := by
  have fraction := x.fraction.isLt
  unfold significand
  rw [Nat.pow_eq, Nat.pow_succ]
  split <;> omega

private theorem exponent_of_lowestScale_lt (normal : lowestScale w p < x.scale) :
    1 < x.exponent.toNat := by
  unfold lowestScale scale at normal
  omega

theorem significand_of_exponent (normal : x.exponent.toNat ≠ 0) :
    x.significand = 2 ^ p + x.fraction.toNat := by
  unfold significand
  rw [Nat.pow_eq, if_neg]
  intro zero
  simp [zero] at normal

private theorem le_significand (normal : lowestScale w p < x.scale) : 2 ^ p ≤ x.significand := by
  have exponent := exponent_of_lowestScale_lt normal
  rw [significand_of_exponent (by omega)]
  omega

/-- The gap below is the narrow one just at the bottom of a binade. -/
theorem isNarrow_iff :
    x.isNarrow = true ↔ x.significand = 2 ^ p ∧ lowestScale w p < x.scale := by
  unfold isNarrow
  rw [Bool.and_eq_true, decide_eq_true_eq, beq_iff_eq]
  constructor
  · rintro ⟨fraction, exponent⟩
    refine ⟨?_, ?_⟩
    · rw [significand_of_exponent (by omega), fraction]
      simp
    · unfold lowestScale scale
      omega
  · rintro ⟨significand, normal⟩
    have exponent := exponent_of_lowestScale_lt normal
    rw [significand_of_exponent (by omega)] at significand
    refine ⟨?_, exponent⟩
    apply BitVec.eq_of_toNat_eq
    simpa using significand

private theorem lt_significand_of_not_isNarrow (normal : lowestScale w p < x.scale)
    (wide : ¬x.isNarrow = true) : 2 ^ p < x.significand := by
  have least := le_significand normal
  have different : x.significand ≠ 2 ^ p := by
    intro bottom
    exact wide (isNarrow_iff.mpr ⟨bottom, normal⟩)
  omega

private theorem toNat_exponent_ne_zero (nonzero : x.exponent ≠ 0) : x.exponent.toNat ≠ 0 := by
  intro zero
  apply nonzero
  apply BitVec.eq_of_toNat_eq
  simpa using zero

private theorem eq_of_significand_scale (sign : x.negative = y.negative)
    (significand : x.significand = y.significand) (scale : x.scale = y.scale) : x = y := by
  have fractionX := x.fraction.isLt
  have fractionY := y.fraction.isLt
  have exponents : x.exponent.toNat = y.exponent.toNat ∧ x.fraction.toNat = y.fraction.toNat := by
    unfold Binary.scale at scale
    by_cases zeroX : x.exponent = 0 <;> by_cases zeroY : y.exponent = 0
    · simpa [Binary.significand, zeroX, zeroY] using significand
    · simp only [Binary.significand, zeroX, zeroY, Nat.pow_eq, if_true, if_false] at significand
      omega
    · simp only [Binary.significand, zeroX, zeroY, Nat.pow_eq, if_true, if_false] at significand
      omega
    · have normalX := toNat_exponent_ne_zero zeroX
      have normalY := toNat_exponent_ne_zero zeroY
      rw [significand_of_exponent normalX, significand_of_exponent normalY] at significand
      omega
  obtain ⟨_, _, _⟩ := x
  obtain ⟨_, _, _⟩ := y
  cases sign
  cases BitVec.eq_of_toNat_eq exponents.1
  cases BitVec.eq_of_toNat_eq exponents.2
  rfl

/-! ## Gaps -/

theorem unit_pos (x : Binary w p) : 0 < x.unit := by
  unfold unit
  positivity

theorem unitBelow_pos (x : Binary w p) : 0 < x.unitBelow := by
  have := x.unit_pos
  unfold unitBelow
  split <;> linarith

private theorem magnitude_nonneg (x : Binary w p) : 0 ≤ x.magnitude := by
  have := x.unit_pos
  unfold magnitude
  positivity

/-- A power of two on the grid of a lower one. -/
theorem zpow_eq_mul {s t : Int} (below : s ≤ t) :
    (2 : ℚ) ^ t = ((2 ^ (t - s).toNat : Nat) : ℚ) * 2 ^ s := by
  rw [Nat.cast_pow, Nat.cast_ofNat, ← zpow_natCast, ← zpow_add₀ two_ne_zero]
  congr 1
  omega

/-- A number on the grid of another one with a lower scale. -/
theorem magnitude_eq_mul (below : x.scale ≤ y.scale) :
    y.magnitude = ((y.significand * 2 ^ (y.scale - x.scale).toNat : Nat) : ℚ) * x.unit := by
  rw [magnitude, unit, zpow_eq_mul below, Nat.cast_mul, unit]
  ring

/-- A number of a lower scale ends half a unit below the binade. -/
theorem magnitude_le_of_scale_lt (lower : y.scale < x.scale) :
    y.magnitude ≤ 2 ^ p * x.unit - x.unit / 2 := by
  have half : x.unit = 2 * 2 ^ (x.scale - 1) := by
    rw [unit, ← zpow_one_add₀ two_ne_zero]
    congr 1
    omega
  have units : y.unit ≤ 2 ^ (x.scale - 1) := zpow_le_zpow_right₀ one_le_two (by omega)
  have significand : (y.significand : ℚ) ≤ 2 ^ (p + 1) - 1 := by
    have below : y.significand + 1 ≤ 2 ^ (p + 1) := y.significand_lt
    have cast : ((y.significand + 1 : Nat) : ℚ) ≤ ((2 ^ (p + 1) : Nat) : ℚ) := Nat.cast_le.mpr below
    push_cast at cast
    linarith
  calc y.magnitude
      ≤ (2 ^ (p + 1) - 1) * 2 ^ (x.scale - 1) := by
        unfold magnitude
        exact mul_le_mul significand units y.unit_pos.le (le_trans (Nat.cast_nonneg _) significand)
    _ = 2 ^ p * x.unit - x.unit / 2 := by
        rw [half, pow_succ]
        ring

/-- Between a number and its neighbours there is no other. -/
theorem magnitude_gap (x y : Binary w p) :
    y.magnitude ≤ x.magnitude - x.unitBelow ∨ y.magnitude = x.magnitude ∨
      x.magnitude + x.unit ≤ y.magnitude := by
  have unit := x.unit_pos
  have own : x.magnitude = x.significand * x.unit := rfl
  rcases lt_or_ge y.scale x.scale with lower | upper
  · left
    have normal : lowestScale w p < x.scale := lt_of_le_of_lt y.lowestScale_le lower
    have below := magnitude_le_of_scale_lt lower
    by_cases narrow : x.isNarrow
    · have bottom : (x.significand : ℚ) = 2 ^ p := by exact_mod_cast (isNarrow_iff.mp narrow).1
      rw [unitBelow, if_pos narrow, own, bottom]
      exact below
    · have above : 2 ^ p + 1 ≤ x.significand := lt_significand_of_not_isNarrow normal narrow
      have cast : (2 : ℚ) ^ p + 1 ≤ x.significand := by exact_mod_cast above
      have scaled := mul_le_mul_of_nonneg_right cast unit.le
      rw [unitBelow, if_neg narrow, own]
      linarith
  · rw [magnitude_eq_mul upper, own]
    have narrowed : x.unitBelow ≤ x.unit := by
      unfold unitBelow
      split <;> linarith
    generalize y.significand * 2 ^ (y.scale - x.scale).toNat = multiple
    rcases lt_trichotomy multiple x.significand with less | equal | more
    · left
      have cast : (multiple : ℚ) + 1 ≤ x.significand := by exact_mod_cast less
      have scaled := mul_le_mul_of_nonneg_right cast unit.le
      linarith
    · right; left
      rw [equal]
    · right; right
      have cast : (x.significand : ℚ) + 1 ≤ multiple := by exact_mod_cast more
      have scaled := mul_le_mul_of_nonneg_right cast unit.le
      linarith

/-- An odd multiple of a power of two is a number with an odd significand, unless it is too small to
be one of that scale. -/
theorem odd_of_magnitude_eq {k : Nat} {s : Int} (value : y.magnitude = k * 2 ^ s) (odd : k % 2 = 1)
    (large : lowestScale w p < s → 2 ^ p ≤ k) : y.significand % 2 = 1 := by
  have positive : (0 : ℚ) < 2 ^ s := by positivity
  rcases lt_trichotomy s y.scale with above | same | below
  · -- The multiple would be even.
    exfalso
    rw [magnitude, unit, zpow_eq_mul above.le, ← mul_assoc, ← Nat.cast_mul] at value
    have multiple : y.significand * 2 ^ (y.scale - s).toNat = k := by
      exact_mod_cast mul_right_cancel₀ positive.ne' value
    obtain ⟨n, exponent⟩ : ∃ n, (y.scale - s).toNat = n + 1 := ⟨(y.scale - s).toNat - 1, by omega⟩
    rw [exponent, pow_succ, ← mul_assoc] at multiple
    omega
  · rw [magnitude, unit, ← same] at value
    have multiple : y.significand = k := by exact_mod_cast mul_right_cancel₀ positive.ne' value
    rwa [multiple]
  · -- The significand would be too long.
    exfalso
    have least := large (lt_of_le_of_lt y.lowestScale_le below)
    rw [magnitude, zpow_eq_mul below.le, ← mul_assoc, ← Nat.cast_mul] at value
    have multiple : y.significand = k * 2 ^ (s - y.scale).toNat := by
      exact_mod_cast mul_right_cancel₀ y.unit_pos.ne' value
    obtain ⟨n, exponent⟩ : ∃ n, (s - y.scale).toNat = n + 1 := ⟨(s - y.scale).toNat - 1, by omega⟩
    have short := y.significand_lt
    have long : 2 ^ p * 2 ^ (n + 1) ≤ y.significand := by
      rw [multiple, exponent]
      exact Nat.mul_le_mul_right _ least
    have more : 2 ^ p * 2 ≤ 2 ^ p * 2 ^ (n + 1) :=
      Nat.mul_le_mul_left _ (by rw [pow_succ]; have := Nat.one_le_two_pow (n := n); omega)
    rw [pow_succ] at short
    omega

theorem odd_of_neighbour_above (even : x.significand % 2 = 0)
    (neighbour : y.magnitude = x.magnitude + x.unit) : y.significand % 2 = 1 := by
  have value : y.magnitude = (x.significand + 1 : Nat) * 2 ^ x.scale := by
    rw [neighbour, magnitude, unit]
    push_cast
    ring
  refine odd_of_magnitude_eq value (by omega) ?_
  intro normal
  have least := le_significand normal
  omega

private theorem odd_of_neighbour_below (even : x.significand % 2 = 0) (nonzero : x.significand ≠ 0)
    (neighbour : y.magnitude = x.magnitude - x.unitBelow) : y.significand % 2 = 1 := by
  by_cases narrow : x.isNarrow
  · obtain ⟨bottom, normal⟩ := isNarrow_iff.mp narrow
    have value : y.magnitude = (2 * x.significand - 1 : Nat) * 2 ^ (x.scale - 1) := by
      rw [neighbour, unitBelow, if_pos narrow, magnitude, unit, Nat.cast_sub (by omega),
        zpow_sub_one₀ two_ne_zero]
      push_cast
      ring
    refine odd_of_magnitude_eq value (by omega) ?_
    intro _
    omega
  · have value : y.magnitude = (x.significand - 1 : Nat) * 2 ^ x.scale := by
      rw [neighbour, unitBelow, if_neg narrow, magnitude, unit, Nat.cast_sub (by omega)]
      push_cast
      ring
    refine odd_of_magnitude_eq value (by omega) ?_
    intro normal
    have above := lt_significand_of_not_isNarrow normal narrow
    omega

/-! ## Values -/

theorem significand_eq_zero_iff : x.significand = 0 ↔ x.isZero = true := by
  unfold significand isZero
  rw [Nat.pow_eq, Bool.and_eq_true, beq_iff_eq, beq_iff_eq]
  have power : 0 < 2 ^ p := by positivity
  constructor
  · intro zero
    split at zero
    · next exponent =>
        refine ⟨exponent, BitVec.eq_of_toNat_eq ?_⟩
        simpa using zero
    · omega
  · rintro ⟨exponent, fraction⟩
    simp [exponent, fraction]

private theorem scale_le_of_magnitude_eq (same : x.magnitude = y.magnitude) :
    x.scale ≤ y.scale := by
  by_contra lower
  have lower : y.scale < x.scale := by omega
  have below := magnitude_le_of_scale_lt lower
  have least : (2 : ℚ) ^ p ≤ x.significand := by
    exact_mod_cast le_significand (lt_of_le_of_lt y.lowestScale_le lower)
  have scaled := mul_le_mul_of_nonneg_right least x.unit_pos.le
  have unit := x.unit_pos
  rw [← same, magnitude] at below
  linarith

theorem abs_toRat (x : Binary w p) : |x.toRat| = x.magnitude := by
  have nonneg := x.magnitude_nonneg
  unfold toRat withSign
  split
  · rw [abs_neg, abs_of_nonneg nonneg]
  · exact abs_of_nonneg nonneg

theorem magnitude_pos (nonzero : x.significand ≠ 0) : 0 < x.magnitude := by
  have unit := x.unit_pos
  have positive : (0 : ℚ) < x.significand := by exact_mod_cast Nat.pos_of_ne_zero nonzero
  exact mul_pos positive unit

/-- The value determines the number, unless it is zero. -/
theorem eq_of_toRat_eq (nonzero : x.significand ≠ 0) (same : x.toRat = y.toRat) : x = y := by
  have magnitudes : x.magnitude = y.magnitude := by rw [← abs_toRat, ← abs_toRat, same]
  have scales : x.scale = y.scale :=
    le_antisymm (scale_le_of_magnitude_eq magnitudes) (scale_le_of_magnitude_eq magnitudes.symm)
  have significands : x.significand = y.significand := by
    have cancelled := magnitudes
    rw [magnitude, magnitude, unit, unit, ← scales] at cancelled
    exact_mod_cast mul_right_cancel₀ x.unit_pos.ne' cancelled
  have positive := magnitude_pos nonzero
  have signs : x.negative = y.negative := by
    unfold toRat withSign at same
    rw [← magnitudes] at same
    cases signX : x.negative <;> cases signY : y.negative <;> simp only [signX, signY] at same ⊢
    · simp only [Bool.false_eq_true, if_true, if_false] at same
      linarith
    · simp only [Bool.false_eq_true, if_true, if_false] at same
      linarith
  exact eq_of_significand_scale signs significands scales

/-! ## Rounding -/

/-- What lies within half the gaps is nearest to the point between them; a tie is with the end of a
gap. -/
theorem nearest_of_gap {point gapBelow gapAbove v t : ℚ} (below : 0 < gapBelow)
    (above : 0 < gapAbove) (lower : point - gapBelow / 2 ≤ v) (upper : v ≤ point + gapAbove / 2)
    (gap : t ≤ point - gapBelow ∨ t = point ∨ point + gapAbove ≤ t) :
    |v - point| ≤ |v - t| ∧ (|v - t| = |v - point| → t ≠ point →
      (v = point - gapBelow / 2 ∧ t = point - gapBelow) ∨
      (v = point + gapAbove / 2 ∧ t = point + gapAbove)) := by
  rcases gap with less | rfl | more
  · have distance : |v - t| = v - t := abs_of_nonneg (by linarith)
    rw [distance]
    rcases abs_cases (v - point) with ⟨same, _⟩ | ⟨same, _⟩ <;> rw [same]
    · refine ⟨by linarith, fun tie _ => ?_⟩
      exfalso
      linarith
    · refine ⟨by linarith, fun tie _ => .inl ⟨by linarith, by linarith⟩⟩
  · exact ⟨le_refl _, fun _ different => absurd rfl different⟩
  · have distance : |v - t| = t - v := by
      rw [abs_sub_comm]
      exact abs_of_nonneg (by linarith)
    rw [distance]
    rcases abs_cases (v - point) with ⟨same, _⟩ | ⟨same, _⟩ <;> rw [same]
    · refine ⟨by linarith, fun tie _ => .inr ⟨by linarith, by linarith⟩⟩
    · refine ⟨by linarith, fun tie _ => ?_⟩
      exfalso
      linarith

/-- A magnitude within half the gaps to both neighbours. -/
structure Encloses (x : Binary w p) (v : ℚ) : Prop where
  lower : x.magnitude - x.unitBelow / 2 ≤ v
  upper : v ≤ x.magnitude + x.unit / 2
  closed : v = x.magnitude - x.unitBelow / 2 ∨ v = x.magnitude + x.unit / 2 →
    x.significand % 2 = 0

private theorem withSign_withSign (negative : Bool) (v : ℚ) :
    withSign negative (withSign negative v) = v := by
  cases negative <;> simp [withSign]

private theorem abs_withSign_sub (negative : Bool) (v t : ℚ) :
    |withSign negative v - t| = |v - withSign negative t| := by
  cases negative
  · rfl
  · simp only [withSign, if_true]
    rw [← abs_neg]
    congr 1
    ring

private theorem withSign_toRat (negative : Bool) (y : Binary w p) :
    withSign negative y.toRat = y.magnitude ∨ withSign negative y.toRat = -y.magnitude := by
  unfold toRat withSign
  cases negative <;> cases y.negative <;> simp

theorem unitBelow_le_magnitude (nonzero : x.significand ≠ 0) : x.unitBelow ≤ x.magnitude := by
  have unit := x.unit_pos
  have least : (1 : ℚ) ≤ x.significand := by exact_mod_cast Nat.one_le_iff_ne_zero.mpr nonzero
  have scaled := mul_le_mul_of_nonneg_right least unit.le
  unfold unitBelow magnitude
  split <;> linarith

/-- The other numbers, as seen from a number of either sign. -/
theorem toRat_gap (nonzero : x.significand ≠ 0) (y : Binary w p) :
    withSign x.negative y.toRat ≤ x.magnitude - x.unitBelow ∨
      withSign x.negative y.toRat = x.magnitude ∨
      x.magnitude + x.unit ≤ withSign x.negative y.toRat := by
  rcases withSign_toRat x.negative y with same | opposite
  · rw [same]
    exact magnitude_gap x y
  · left
    have below := unitBelow_le_magnitude nonzero
    have nonneg := y.magnitude_nonneg
    rw [opposite]
    linarith

private theorem toRat_eq_iff (x y : Binary w p) :
    y.toRat = x.toRat ↔ withSign x.negative y.toRat = x.magnitude := by
  rw [toRat.eq_def x]
  constructor
  · intro same
    rw [same, withSign_withSign]
  · intro same
    rw [← same, withSign_withSign]

namespace Encloses

variable {v : ℚ}

private theorem nearest (encloses : x.Encloses v) (nonzero : x.significand ≠ 0) (y : Binary w p) :
    |withSign x.negative v - x.toRat| ≤ |withSign x.negative v - y.toRat| ∧
      (|withSign x.negative v - y.toRat| = |withSign x.negative v - x.toRat| →
        y.toRat ≠ x.toRat → x.significand % 2 = 0 ∧
          (withSign x.negative y.toRat = x.magnitude - x.unitBelow ∨
            withSign x.negative y.toRat = x.magnitude + x.unit)) := by
  obtain ⟨near, tie⟩ := nearest_of_gap x.unitBelow_pos x.unit_pos encloses.lower encloses.upper
    (toRat_gap nonzero y)
  rw [abs_withSign_sub, abs_withSign_sub, toRat, withSign_withSign]
  refine ⟨near, ?_⟩
  intro equal different
  rcases tie equal ((toRat_eq_iff x y).not.mp different) with
    ⟨isEnd, neighbour⟩ | ⟨isEnd, neighbour⟩
  · exact ⟨encloses.closed (.inl isEnd), .inl neighbour⟩
  · exact ⟨encloses.closed (.inr isEnd), .inr neighbour⟩

/-- What a number encloses rounds to it. -/
theorem roundsTo (encloses : x.Encloses v) (number : x.isNaN = false)
    (nonzero : x.significand ≠ 0) : RoundsTo (withSign x.negative v) x where
  number := number
  nearest := fun y _ => (encloses.nearest nonzero y).1
  even := fun y _ tie different => ((encloses.nearest nonzero y).2 tie different).1

/-- What a number encloses rounds to no other number: a neighbour that is as near has an odd
significand. -/
theorem unique (encloses : x.Encloses v) (number : x.isNaN = false) (nonzero : x.significand ≠ 0)
    (rounds : RoundsTo (withSign x.negative v) y) : y = x := by
  by_contra different
  have values : y.toRat ≠ x.toRat := fun same => different (eq_of_toRat_eq nonzero same.symm).symm
  obtain ⟨near, tie⟩ := encloses.nearest nonzero y
  have equal := le_antisymm (rounds.nearest x number) near
  have evenY := rounds.even x number equal.symm values.symm
  obtain ⟨evenX, neighbour⟩ := tie equal values
  have magnitudes : y.magnitude = x.magnitude - x.unitBelow ∨ y.magnitude = x.magnitude + x.unit := by
    have below := unitBelow_le_magnitude nonzero
    have unit := x.unit_pos
    have nonneg := y.magnitude_nonneg
    have positive := magnitude_pos nonzero
    rcases withSign_toRat x.negative y with same | opposite
    · rwa [← same]
    · rw [opposite] at neighbour
      rcases neighbour with neighbour | neighbour
      · left
        linarith
      · exfalso
        linarith
  rcases magnitudes with neighbour | neighbour
  · have odd := odd_of_neighbour_below evenX nonzero neighbour
    omega
  · have odd := odd_of_neighbour_above evenX neighbour
    omega

end Encloses

end Binary

end LooseValue
