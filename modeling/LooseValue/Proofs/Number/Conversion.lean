import LooseValue.Number.Source
import LooseValue.Proofs.Number.Rounding

/-!
# Exact conversion

A numeric source stands for a rational with a sign, for an infinity or for no number at all, and what
it stands for does not depend on the format that it is kept in. A short significand with a moderate
scale is normalised without loss: its leading bit becomes the implied one and the places behind it
are filled up with zeros. All integers of up to 32 bits and all single-precision numbers, also those
below the normal range there, are of this sort, so conversion to double precision keeps the reading of
every source.
-/

set_option autoImplicit false

namespace LooseValue

/-- What a numeric datum stands for. The sign stands beside the value, as there are two zeros. -/
inductive Reading where
  | finite (negative : Bool) (value : ℚ)
  | infinite (negative : Bool)
  | notANumber
  deriving DecidableEq

def Reading.ofInt (n : Int) : Reading := .finite (n < 0) n

namespace Binary

variable {w p : Nat} {x : Binary w p}

def reading (x : Binary w p) : Reading :=
  if x.isFinite then .finite x.negative x.toRat
  else if x.isInfinite then .infinite x.negative
  else .notANumber

theorem reading_of_isFinite (finite : x.isFinite = true) :
    x.reading = .finite x.negative x.toRat := if_pos finite

theorem reading_of_not_isFinite (notFinite : ¬ x.isFinite = true) :
    x.reading = if x.isInfinite then .infinite x.negative else .notANumber := if_neg notFinite

theorem reading_eq_finite_iff {negative : Bool} {value : ℚ} :
    x.reading = .finite negative value ↔
      x.isFinite = true ∧ x.negative = negative ∧ x.toRat = value := by
  unfold reading
  split
  · next finite => simp [finite]
  · next notFinite => split <;> simp [notFinite]

theorem reading_eq_infinite_iff {negative : Bool} :
    x.reading = .infinite negative ↔ x.isInfinite = true ∧ x.negative = negative := by
  unfold reading isFinite isInfinite
  by_cases ones : x.exponent = BitVec.allOnes w <;> by_cases zero : x.fraction = 0#p <;>
    simp [ones, zero]

theorem reading_eq_notANumber_iff : x.reading = .notANumber ↔ x.isNaN = true := by
  unfold reading isFinite isInfinite isNaN
  by_cases ones : x.exponent = BitVec.allOnes w <;> by_cases zero : x.fraction = 0#p <;>
    simp [ones, zero]

private theorem isFinite_iff_exponent_lt : x.isFinite = true ↔ x.exponent.toNat < 2 ^ w - 1 := by
  have inside := x.exponent.isLt
  unfold isFinite
  rw [bne_iff_ne, ne_eq, ← BitVec.toNat_inj, BitVec.toNat_allOnes]
  omega

/-! ## Normalisation -/

/-- A significand and a scale that the normal range of a format has room for, wherever the leading bit
of the significand is. -/
structure Fits (w p m : Nat) (q : Int) : Prop where
  short : m < 2 ^ (p + 1)
  above : -(bias w : Int) < q
  below : q + p ≤ bias w

private theorem negative_ofScaled (negative : Bool) (m : Nat) (q : Int) :
    (ofScaled negative m q : Binary w p).negative = negative := by
  unfold ofScaled
  split <;> rfl

namespace Fits

variable {m : Nat} {q : Int}

private theorem two_pow_width (fits : Fits w p m q) : 2 ^ w = 2 * bias w + 2 := by
  -- Without exponent bits there is no scale between the two bounds.
  have positive : 0 < bias w := by
    have above := fits.above
    have below := fits.below
    omega
  unfold bias at positive ⊢
  rw [Nat.pow_eq] at positive ⊢
  cases w with
  | zero => simp at positive
  | succ w =>
      rw [Nat.add_sub_cancel] at positive ⊢
      rw [Nat.pow_succ]
      omega

private theorem log2_le (fits : Fits w p m q) (nonzero : m ≠ 0) : m.log2 ≤ p :=
  Nat.le_of_lt_succ ((Nat.log2_lt nonzero).mpr fits.short)

/-- Filled up with zeros, the significand has its leading bit in the place of the implied one. -/
theorem filled_bounds (fits : Fits w p m q) (nonzero : m ≠ 0) :
    2 ^ p ≤ m * 2 ^ (p - m.log2) ∧ m * 2 ^ (p - m.log2) < 2 ^ (p + 1) := by
  have places := fits.log2_le nonzero
  have least := Nat.mul_le_mul_right (2 ^ (p - m.log2)) (Nat.log2_self_le nonzero)
  have below := Nat.mul_lt_mul_of_pos_right (Nat.lt_log2_self (n := m)) (Nat.two_pow_pos (p - m.log2))
  rw [← Nat.pow_add] at least below
  rw [show m.log2 + (p - m.log2) = p by omega] at least
  rw [show m.log2 + 1 + (p - m.log2) = p + 1 by omega] at below
  exact ⟨least, below⟩

private theorem exponent_ofScaled (fits : Fits w p m q) (nonzero : m ≠ 0) (negative : Bool) :
    ((ofScaled negative m q : Binary w p).exponent.toNat : Int) = m.log2 + q + bias w := by
  have places := fits.log2_le nonzero
  have width := fits.two_pow_width
  obtain ⟨_, above, below⟩ := fits
  rw [ofScaled, if_neg nonzero, BitVec.toNat_ofNat, Nat.mod_eq_of_lt (by omega)]
  omega

private theorem significand_ofScaled (fits : Fits w p m q) (nonzero : m ≠ 0) (negative : Bool) :
    (ofScaled negative m q : Binary w p).significand = m * 2 ^ (p - m.log2) := by
  have normal : (ofScaled negative m q : Binary w p).exponent.toNat ≠ 0 := by
    have exponent := fits.exponent_ofScaled nonzero negative
    have above := fits.above
    omega
  have filled : m * 2 ^ p / 2 ^ m.log2 = m * 2 ^ (p - m.log2) := by
    apply Nat.div_eq_of_eq_mul_left (Nat.two_pow_pos _)
    rw [Nat.mul_assoc, ← Nat.pow_add, Nat.sub_add_cancel (fits.log2_le nonzero)]
  have fraction : (ofScaled negative m q : Binary w p).fraction.toNat =
      m * 2 ^ (p - m.log2) % 2 ^ p := by
    rw [ofScaled, if_neg nonzero, BitVec.toNat_ofNat, Nat.pow_eq, Nat.pow_eq, filled]
  -- The fraction field drops the leading bit, and the implied one gives it back.
  obtain ⟨least, below⟩ := fits.filled_bounds nonzero
  rw [significand_of_exponent normal, fraction, Nat.mod_eq_sub_mod least,
    Nat.mod_eq_of_lt (by omega)]
  omega

private theorem scale_ofScaled (fits : Fits w p m q) (nonzero : m ≠ 0) (negative : Bool) :
    (ofScaled negative m q : Binary w p).scale = m.log2 + q - p := by
  have exponent := fits.exponent_ofScaled nonzero negative
  have above := fits.above
  unfold scale
  omega

private theorem isFinite_ofScaled (fits : Fits w p m q) (negative : Bool) :
    (ofScaled negative m q : Binary w p).isFinite = true := by
  have width := fits.two_pow_width
  rw [isFinite_iff_exponent_lt]
  by_cases zero : m = 0
  · simp [ofScaled, zero, Binary.zero, width]
  · have places := fits.log2_le zero
    have exponent := fits.exponent_ofScaled zero negative
    obtain ⟨_, above, below⟩ := fits
    omega

private theorem magnitude_ofScaled (fits : Fits w p m q) (negative : Bool) :
    (ofScaled negative m q : Binary w p).magnitude = m * 2 ^ q := by
  by_cases zero : m = 0
  · simp [ofScaled, zero, magnitude, significand, Binary.zero]
  · have places := fits.log2_le zero
    rw [magnitude, unit, fits.significand_ofScaled zero, fits.scale_ofScaled zero, Nat.cast_mul,
      Nat.cast_pow, Nat.cast_ofNat, mul_assoc, ← zpow_natCast, ← zpow_add₀ two_ne_zero]
    congr 2
    omega

/-- What fits is kept exactly, with its sign. -/
theorem reading_ofScaled (fits : Fits w p m q) (negative : Bool) :
    (ofScaled negative m q : Binary w p).reading =
      .finite negative (withSign negative (m * 2 ^ q)) := by
  rw [reading_of_isFinite (fits.isFinite_ofScaled negative), toRat, negative_ofScaled,
    fits.magnitude_ofScaled negative]

end Fits

/-! ## Conversions -/

private theorem reading_ofInt {n : Int} (fits : Fits w p n.natAbs 0) :
    (ofInt n : Binary w p).reading = .ofInt n := by
  rw [ofInt, fits.reading_ofScaled, zpow_zero, mul_one, Nat.cast_natAbs, Reading.ofInt, withSign]
  split
  · next negative =>
      rw [abs_of_neg (of_decide_eq_true negative)]
      push_cast
      rw [neg_neg]
  · next nonneg =>
      rw [abs_of_nonneg (by simpa using nonneg)]

/-- Single precision is contained in the normal range of double precision. -/
theorem fits_of_isFinite {x : Binary32} (finite : x.isFinite = true) :
    Fits 11 52 x.significand x.scale := by
  have exponent := isFinite_iff_exponent_lt.mp finite
  have biases : bias 8 = 127 ∧ bias 11 = 1023 := by decide
  have scale : x.scale = (max x.exponent.toNat 1 : Nat) - 150 := by
    rw [Binary.scale, biases.1]
    rfl
  refine ⟨x.significand_lt.trans (by decide), ?_, ?_⟩
  · rw [biases.2, scale]
    omega
  · rw [biases.2, scale]
    omega

private theorem reading_widen (x : Binary32) : x.widen.reading = x.reading := by
  by_cases finite : x.isFinite = true
  · have fits := fits_of_isFinite finite
    rw [widen, if_pos finite, fits.reading_ofScaled, reading_of_isFinite finite]
    rfl
  · -- Moved up to the longer field, no bit of the fraction is lost, so the class stays.
    have inside := x.fraction.isLt
    have zero : BitVec.ofNat 52 (x.fraction.toNat * Nat.pow 2 29) = 0#52 ↔ x.fraction = 0#23 := by
      rw [← BitVec.toNat_inj, ← BitVec.toNat_inj, BitVec.toNat_ofNat, Nat.pow_eq]
      simp only [BitVec.toNat_zero]
      omega
    have ones : x.exponent = BitVec.allOnes 8 := by simpa [isFinite] using finite
    rw [widen, if_neg finite]
    simp only [reading, isFinite, isInfinite, ones, bne_self_eq_false, beq_self_eq_true,
      Bool.true_and, beq_iff_eq, BitVec.ofNat_eq_ofNat, zero, Bool.false_eq_true, if_false]

end Binary

namespace NumericSource

open Binary

/-- What a source stands for, in its own format. -/
def reading : NumericSource → Reading
  | .binary64 x => x.reading
  | .binary32 x => x.reading
  | .int8 n => .ofInt n.toInt
  | .int16 n => .ofInt n.toInt
  | .int32 n => .ofInt n.toInt
  | .uint8 n => .ofInt n.toNat
  | .uint16 n => .ofInt n.toNat
  | .uint32 n => .ofInt n.toNat
  | .boolean b => .ofInt b.toNat

private theorem fits_of_bounds {n : Int} (lower : -2 ^ 32 ≤ n) (upper : n ≤ 2 ^ 32) :
    Fits 11 52 n.natAbs 0 where
  short := by omega
  above := by decide
  below := by decide

/-- Conversion to double precision loses nothing, whatever the source. -/
theorem reading_toBinary64 (n : NumericSource) : n.toBinary64.reading = n.reading := by
  cases n with
  | binary64 x => rfl
  | binary32 x => exact reading_widen x
  | int8 n =>
      have lower := n.le_toInt
      have upper := n.toInt_lt
      exact reading_ofInt (fits_of_bounds (by omega) (by omega))
  | int16 n =>
      have lower := n.le_toInt
      have upper := n.toInt_lt
      exact reading_ofInt (fits_of_bounds (by omega) (by omega))
  | int32 n =>
      have lower := n.le_toInt
      have upper := n.toInt_lt
      exact reading_ofInt (fits_of_bounds (by omega) (by omega))
  | uint8 n =>
      have upper := n.toNat_lt
      exact reading_ofInt (fits_of_bounds (by omega) (by omega))
  | uint16 n =>
      have upper := n.toNat_lt
      exact reading_ofInt (fits_of_bounds (by omega) (by omega))
  | uint32 n =>
      have upper := n.toNat_lt
      exact reading_ofInt (fits_of_bounds (by omega) (by omega))
  | boolean b =>
      have upper := b.toNat_lt
      exact reading_ofInt (fits_of_bounds (by omega) (by omega))

end NumericSource

end LooseValue
