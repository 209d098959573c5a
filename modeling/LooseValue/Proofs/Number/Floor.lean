import Mathlib.Data.Rat.Floor
import LooseValue.Number.Floor
import LooseValue.Proofs.Number.Conversion

/-!
# The exact floor

The floor of a numeric source reads as the integer floor of what the source reads as: neither the
conversion nor the result is rounded. A number with a scale of zero or more is an integer. Below that,
the quotient of the significand by a power of two is short enough to be kept, also after the step away
from zero that a negative number with a remainder takes and that may carry into the next binade.
-/

set_option autoImplicit false

namespace LooseValue

namespace Reading

/-- The largest integer that is not above a finite value. The sign stays, also that of zero, and the
other readings are kept. -/
def floor : Reading → Reading
  | .finite negative value => .finite negative ⌊value⌋
  | .infinite negative => .infinite negative
  | .notANumber => .notANumber

/-- The numeric order: the two zeros are equal, and not-a-number is not ordered at all. -/
inductive AtMost : Reading → Reading → Prop where
  | finite {left right : Bool} {a b : ℚ} : a ≤ b → AtMost (.finite left a) (.finite right b)
  | infiniteBelow {reading : Reading} : reading ≠ .notANumber → AtMost (.infinite true) reading
  | infiniteAbove {reading : Reading} : reading ≠ .notANumber → AtMost reading (.infinite false)

private theorem floor_ne_notANumber {reading : Reading} (number : reading ≠ .notANumber) :
    reading.floor ≠ .notANumber := by
  cases reading with
  | finite _ _ => simp [floor]
  | infinite _ => simp [floor]
  | notANumber => exact absurd rfl number

theorem AtMost.floor {a b : Reading} (ordered : a.AtMost b) : a.floor.AtMost b.floor := by
  cases ordered with
  | finite values => exact .finite (by exact_mod_cast Int.floor_le_floor values)
  | infiniteBelow number => exact .infiniteBelow (floor_ne_notANumber number)
  | infiniteAbove number => exact .infiniteAbove (floor_ne_notANumber number)

end Reading

/-! ## Fractions -/

/-- How far from zero the floor of a fraction with a remainder is: a negative one goes one further
down. -/
def wholeBelow (negative : Bool) (m d : Nat) : Nat := if negative then m / d + 1 else m / d

private theorem floor_withSign_div {m d : Nat} (positive : 0 < d) (remainder : m % d ≠ 0)
    (negative : Bool) :
    (⌊withSign negative ((m : ℚ) / d)⌋ : ℚ) = withSign negative (wholeBelow negative m d) := by
  cases negative with
  | false =>
      simp only [withSign, wholeBelow, Bool.false_eq_true, if_false, Rat.floor_natCast_div_natCast]
      rfl
  | true =>
      have undivided : ¬ (d : Int) ∣ m := by
        rw [Int.natCast_dvd_natCast]
        exact fun divides => remainder (Nat.mod_eq_zero_of_dvd divides)
      have further : ⌊-((m : ℚ) / d)⌋ = -((m / d : Nat) : Int) - 1 := by
        rw [← neg_div, ← Int.cast_natCast m, ← Int.cast_neg, Rat.floor_intCast_div_natCast,
          Int.neg_ediv, if_neg undivided, Int.sign_eq_one_of_pos (by omega), Int.natCast_ediv]
      simp only [withSign, wholeBelow, if_true, further, Int.cast_sub, Int.cast_neg, Int.cast_natCast,
        Int.cast_one, Nat.cast_add, Nat.cast_one]
      ring

private theorem floor_withSign_natCast (negative : Bool) (n : Nat) :
    (⌊withSign negative (n : ℚ)⌋ : ℚ) = withSign negative n := by
  cases negative <;> simp [withSign, Int.floor_neg]

namespace Binary

variable {w p : Nat} {x : Binary w p}

private theorem magnitude_of_scale_neg (fractional : x.scale < 0) :
    x.magnitude = (x.significand : ℚ) / (2 ^ (-x.scale).toNat : Nat) := by
  rw [magnitude, unit, Nat.cast_pow, Nat.cast_ofNat, ← zpow_natCast, div_eq_mul_inv, ← zpow_neg]
  congr 2
  omega

private theorem magnitude_of_scale_nonneg (whole : 0 ≤ x.scale) :
    x.magnitude = (x.significand * 2 ^ x.scale.toNat : Nat) := by
  rw [magnitude, unit, Nat.cast_mul, Nat.cast_pow, Nat.cast_ofNat, ← zpow_natCast,
    Int.toNat_of_nonneg whole]

/-- A number with a part behind the point, as a fraction with a remainder. -/
structure IsFraction (x : Binary w p) (d : Nat) : Prop where
  finite : x.isFinite = true
  two_le : 2 ≤ d
  remainder : x.significand % d ≠ 0
  magnitude : x.magnitude = (x.significand : ℚ) / d

/-- A datum is its own floor unless it has a part behind the point. -/
theorem floor_cases (x : Binary w p) :
    (x.floor = x ∧ (x.isFinite = true → ∃ n : Nat, x.magnitude = n)) ∨
    ∃ d, x.IsFraction d ∧
      x.floor = ofScaled x.negative (wholeBelow x.negative x.significand d) 0 := by
  unfold floor
  split
  · next fractional =>
      rw [Bool.and_eq_true, decide_eq_true_eq] at fractional
      obtain ⟨finite, fractional⟩ := fractional
      have magnitude := magnitude_of_scale_neg fractional
      have two_le : 2 ≤ 2 ^ (-x.scale).toNat := Nat.le_self_pow (by omega) 2
      rw [Nat.pow_eq]
      generalize 2 ^ (-x.scale).toNat = d at magnitude two_le ⊢
      by_cases divides : x.significand % d = 0
      · refine .inl ⟨if_pos divides, fun _ => ⟨x.significand / d, ?_⟩⟩
        rw [magnitude, div_eq_iff (Nat.cast_ne_zero.mpr (by omega))]
        exact_mod_cast (Nat.div_mul_cancel (Nat.dvd_of_mod_eq_zero divides)).symm
      · exact .inr ⟨d, ⟨finite, two_le, divides, magnitude⟩, if_neg divides⟩
  · next whole =>
      refine .inl ⟨rfl, fun finite => ⟨_, magnitude_of_scale_nonneg ?_⟩⟩
      simpa [finite] using whole

private theorem floor_of_not_isFinite (notFinite : ¬ x.isFinite = true) : x.floor = x := by
  rcases x.floor_cases with ⟨same, _⟩ | ⟨_, fraction, _⟩
  · exact same
  · exact absurd fraction.finite notFinite

/-- The integer part is shorter than the significand by a place, which leaves room for one more. -/
theorem IsFraction.fits {d : Nat} (fraction : x.IsFraction d) (roomy : p < bias w) :
    Fits w p (wholeBelow x.negative x.significand d) 0 := by
  have short := x.significand_lt
  have halved := Nat.div_le_div_left (a := x.significand) fraction.two_le (by omega)
  rw [Nat.pow_succ] at short
  have power := Nat.two_pow_pos p
  refine ⟨?_, by omega, by omega⟩
  rw [Nat.pow_succ, wholeBelow]
  split <;> omega

/-- The floor of a number reads as the floor of its reading, where the format has room for its
integers. -/
theorem reading_floor (roomy : p < bias w) (x : Binary w p) : x.floor.reading = x.reading.floor := by
  by_cases finite : x.isFinite = true
  · rw [reading_of_isFinite finite, Reading.floor, toRat]
    rcases x.floor_cases with ⟨same, integral⟩ | ⟨d, fraction, made⟩
    · obtain ⟨n, value⟩ := integral finite
      rw [same, reading_of_isFinite finite, toRat, value, floor_withSign_natCast]
    · have two_le := fraction.two_le
      rw [made, (fraction.fits roomy).reading_ofScaled, zpow_zero, mul_one, fraction.magnitude,
        floor_withSign_div (by omega) fraction.remainder]
  · rw [floor_of_not_isFinite finite, reading_of_not_isFinite finite]
    split <;> rfl

/-- A number that is an integer is its own floor. -/
theorem floor_eq_self {k : Int} (integral : x.toRat = k) : x.floor = x := by
  rcases x.floor_cases with ⟨same, _⟩ | ⟨d, fraction, _⟩
  · exact same
  · -- The magnitude would be the integer, and the significand a multiple of the divisor.
    exfalso
    have two_le := fraction.two_le
    have nonzero : (d : ℚ) ≠ 0 := Nat.cast_ne_zero.mpr (by omega)
    have magnitude := fraction.magnitude
    rw [← abs_toRat, integral, eq_div_iff nonzero, ← Int.cast_abs, Int.abs_eq_natAbs,
      Int.cast_natCast] at magnitude
    have divided : k.natAbs * d = x.significand := by exact_mod_cast magnitude
    exact fraction.remainder (by rw [← divided, Nat.mul_mod_left])

private theorem floor_floor (roomy : p < bias w) (x : Binary w p) : x.floor.floor = x.floor := by
  by_cases finite : x.isFinite = true
  · have reads := reading_floor roomy x
    rw [reading_of_isFinite finite] at reads
    exact floor_eq_self (reading_eq_finite_iff.mp reads).2.2
  · rw [floor_of_not_isFinite finite, floor_of_not_isFinite finite]

end Binary

namespace NumericSource

private theorem reading_floor (n : NumericSource) : n.floor.reading = n.reading.floor := by
  rw [floor, Binary.reading_floor (by decide), reading_toBinary64]

/-- The floor of a source is exact: conversion keeps what the source reads as, and the floor of a finite
source reads as the largest integer that is not above it, with the sign of the source, so that negative
zero stays. Infinities are returned as they are, and not-a-number for not-a-number. A second floor
changes nothing, and floors are ordered as the sources are. -/
theorem floor_exact (n : NumericSource) :
    n.toBinary64.reading = n.reading ∧
    (∀ negative value, n.reading = .finite negative value →
      ∃ k : Int, n.floor.reading = .finite negative k ∧ IsGreatest {j : Int | (j : ℚ) ≤ value} k) ∧
    (∀ negative, n.reading = .infinite negative →
      n.floor = n.toBinary64 ∧ n.floor.isInfinite = true ∧ n.floor.negative = negative) ∧
    (n.reading = .notANumber → n.floor.isNaN = true) ∧
    (binary64 n.floor).floor = n.floor ∧
    ∀ m : NumericSource, n.reading.AtMost m.reading → n.floor.reading.AtMost m.floor.reading := by
  have reads := n.reading_floor
  refine ⟨n.reading_toBinary64, ?_, ?_, ?_, Binary.floor_floor (by decide) n.toBinary64, ?_⟩
  · intro negative value finite
    refine ⟨⌊value⌋, by rw [reads, finite, Reading.floor], Int.floor_le value, ?_⟩
    intro j below
    exact Int.le_floor.mpr below
  · intro negative infinite
    have same : n.floor = n.toBinary64 := by
      apply Binary.floor_of_not_isFinite
      intro finite
      rw [← reading_toBinary64, Binary.reading_of_isFinite finite] at infinite
      cases infinite
    rw [infinite, Reading.floor] at reads
    exact ⟨same, Binary.reading_eq_infinite_iff.mp reads⟩
  · intro notANumber
    rw [← Binary.reading_eq_notANumber_iff, reads, notANumber, Reading.floor]
  · intro m ordered
    rw [reads, m.reading_floor]
    exact ordered.floor

-- The largest number below two, taken negatively: its floor carries into the next binade.
example : (binary64 (.ofBits 0xBFFFFFFFFFFFFFFF)).floor = .ofBits 0xC000000000000000 := by
  decide +kernel

/-- The negative number of single precision that is nearest to zero. -/
def leastNegative : Binary32 := ⟨true, 0, 1⟩

/-- However near to zero, a negative number goes down to minus one; negative zero, which is above it,
stays. An infinity and a not-a-number are told apart by the fraction field. -/
theorem leastNegative_floor :
    (binary32 leastNegative).reading = .finite true (-1 / 2 ^ 149) ∧
    (∃ k : Int, (binary32 leastNegative).floor.reading = .finite true k ∧
      IsGreatest {j : Int | (j : ℚ) ≤ -1 / 2 ^ 149} k) ∧
    (binary32 leastNegative).floor = .ofInt (-1) ∧
    (binary32 leastNegative).reading.AtMost (binary64 (.zero true)).reading ∧
    (binary32 leastNegative).floor.reading.AtMost (binary64 (.zero true)).floor.reading ∧
    (binary64 (.zero true)).floor = .zero true ∧
    (binary32 ⟨true, 255, 0⟩).reading = .infinite true ∧
    (binary32 ⟨true, 255, 0⟩).floor = (binary32 ⟨true, 255, 0⟩).toBinary64 ∧
    (binary32 ⟨true, 255, 1⟩).reading = .notANumber ∧
    (binary32 ⟨true, 255, 1⟩).floor.isNaN = true := by
  have reads : (binary32 leastNegative).reading = .finite true (-1 / 2 ^ 149) := by decide +kernel
  have zero : (binary64 (.zero true)).reading = .finite true 0 := by
    refine Binary.reading_eq_finite_iff.mpr ⟨by decide, rfl, ?_⟩
    simp [Binary.toRat, Binary.magnitude, Binary.significand, Binary.zero, withSign]
  have ordered : (binary32 leastNegative).reading.AtMost (binary64 (.zero true)).reading := by
    rw [reads, zero]
    exact .finite (by decide +kernel)
  have infinite : (binary32 ⟨true, 255, 0⟩).reading = .infinite true := by decide +kernel
  have notANumber : (binary32 ⟨true, 255, 1⟩).reading = .notANumber := by decide +kernel
  obtain ⟨_, finite, _, _, _, monotone⟩ := floor_exact (.binary32 leastNegative)
  refine ⟨reads, finite _ _ reads, by decide +kernel, ordered, monotone _ ordered,
    by decide +kernel, infinite, ?_, notANumber, ?_⟩
  · exact ((floor_exact (.binary32 ⟨true, 255, 0⟩)).2.2.1 _ infinite).1
  · exact (floor_exact (.binary32 ⟨true, 255, 1⟩)).2.2.2.1 notANumber

end NumericSource

end LooseValue
