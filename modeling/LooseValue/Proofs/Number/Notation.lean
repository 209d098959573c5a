import LooseValue.Proofs.Decimal.Grids
import LooseValue.Proofs.Decimal.Notation
import LooseValue.Proofs.Number.Text

/-!
# The notation of a number

The text of a number is in canonical notation. Which of the two notations it is in depends on the
exponent of the shortest decimal; but what rounds to different numbers is ordered as the numbers are,
and at the two limits the shortest decimal is the power of ten itself. So the choice is the one that
comparing the number with the limits would make.
-/

set_option autoImplicit false

namespace LooseValue

open Numeral

namespace Binary

section Order

variable {w p : Nat} {x y : Binary w p}

/-- Rounding is strictly monotone: half the gap above the smaller number and half the gap below the
larger one do not meet, but where both are the whole gap, and then only one of the two numbers takes
the end of its half. -/
theorem Encloses.lt_of_magnitude_lt {u v : ℚ} (enclosesX : x.Encloses u) (enclosesY : y.Encloses v)
    (less : x.magnitude < y.magnitude) : u < v := by
  have unit := x.unit_pos
  have unitBelow := y.unitBelow_pos
  have gapAbove : x.magnitude + x.unit ≤ y.magnitude := by
    rcases magnitude_gap x y with below | same | above
    · have := x.unitBelow_pos
      linarith
    · linarith
    · exact above
  have gapBelow : x.magnitude ≤ y.magnitude - y.unitBelow := by
    rcases magnitude_gap y x with below | same | above
    · exact below
    · linarith
    · have := y.unit_pos
      linarith
  have upper := enclosesX.upper
  have lower := enclosesY.lower
  have ordered : u ≤ v := by linarith
  refine lt_of_le_of_ne ordered ?_
  intro same
  have evenX := enclosesX.closed (.inr (by linarith))
  have evenY := enclosesY.closed (.inl (by linarith))
  have odd := odd_of_neighbour_above evenX (y := y) (by linarith)
  omega

/-- The shortest decimal depends on the magnitude alone. -/
theorem shortest_eq_of_magnitude_eq (nonzero : x.significand ≠ 0)
    (same : x.magnitude = y.magnitude) : x.shortest = y.shortest := by
  let unsigned (z : Binary w p) : Binary w p := { z with negative := false }
  have values : (unsigned x).toRat = (unsigned y).toRat := same
  have numbers : unsigned x = unsigned y := eq_of_toRat_eq (x := unsigned x) nonzero values
  have shortest (z : Binary w p) : (unsigned z).shortest = z.shortest := rfl
  rw [← shortest x, numbers, shortest y]

/-- A limit that is written as a power of ten divides the leading exponents as it divides the
numbers. -/
theorem leading_lt_iff_of_limit {limit : Binary w p} {power : Int}
    (limitNonzero : limit.significand ≠ 0) (written : limit.shortest = ⟨1, power⟩)
    (nonzero : x.significand ≠ 0) :
    x.shortest.leading < power ↔ x.magnitude < limit.magnitude := by
  have enclosesX := shortest_encloses nonzero
  have encloses := shortest_encloses limitNonzero
  have value : limit.shortest.toRat = 10 ^ power := by
    rw [written, Decimal.toRat, Nat.cast_one, one_mul]
  rw [Decimal.leading_lt_iff (Decimal.digits_ne_zero (shortest_reduced nonzero)), ← value]
  constructor
  · intro below
    by_contra above
    rcases eq_or_lt_of_le (not_lt.mp above) with same | more
    · rw [shortest_eq_of_magnitude_eq limitNonzero same] at below
      exact absurd below (lt_irrefl _)
    · exact absurd below (not_lt.mpr (encloses.lt_of_magnitude_lt enclosesX more).le)
  · exact enclosesX.lt_of_magnitude_lt encloses

end Order

/-! ## The limits -/

/-- The number `1e21`. -/
def positionalLimit : Binary64 := .ofBits 0x444B1AE4D6E2EF50

/-- The number `1e-6`. -/
def positionalLeast : Binary64 := .ofBits 0x3EB0C6F7A0B5ED8D

private theorem shortest_positionalLimit : positionalLimit.shortest = ⟨1, 21⟩ := by decide +kernel

private theorem shortest_positionalLeast : positionalLeast.shortest = ⟨1, -6⟩ := by decide +kernel

private theorem value_positionalLimit :
    withSign positionalLimit.negative positionalLimit.shortest.toRat = 10 ^ 21 := by
  decide +kernel

private theorem value_positionalLeast :
    withSign positionalLeast.negative positionalLeast.shortest.toRat = 1 / 10 ^ 6 := by
  decide +kernel

private theorem roundsTo_shortest_iff {x y : Binary64} (finite : x.isFinite = true)
    (nonzero : x.isZero = false) : RoundsTo (withSign x.negative x.shortest.toRat) y ↔ y = x := by
  constructor
  · exact eq_of_roundsTo_shortest finite nonzero
  · rintro rfl
    exact roundsTo_shortest finite nonzero

private theorem roundsTo_limit_iff {y : Binary64} : RoundsTo (10 ^ 21) y ↔ y = positionalLimit := by
  rw [← value_positionalLimit]
  exact roundsTo_shortest_iff (by decide) (by decide)

private theorem roundsTo_least_iff {y : Binary64} :
    RoundsTo (1 / 10 ^ 6) y ↔ y = positionalLeast := by
  rw [← value_positionalLeast]
  exact roundsTo_shortest_iff (by decide) (by decide)

private theorem magnitude_positionalLimit : positionalLimit.magnitude = 10 ^ 21 := by decide +kernel

variable {x : Binary64}

private theorem leading_lt_limit_iff (nonzero : x.significand ≠ 0) :
    x.shortest.leading < 21 ↔ x.magnitude < positionalLimit.magnitude :=
  leading_lt_iff_of_limit (by decide) shortest_positionalLimit nonzero

private theorem leading_lt_least_iff (nonzero : x.significand ≠ 0) :
    x.shortest.leading < -6 ↔ x.magnitude < positionalLeast.magnitude :=
  leading_lt_iff_of_limit (by decide) shortest_positionalLeast nonzero

/-- The written shortest decimal of a number, in the notation that its magnitude asks for. -/
theorem write_shortest_cases (nonzero : x.significand ≠ 0) :
    (Positional (x.shortest.write .canonical) ∧
      ('.' ∈ x.shortest.write .canonical ↔ x.shortest.exponent < 0) ∧
      positionalLeast.magnitude ≤ x.magnitude ∧ x.magnitude < positionalLimit.magnitude) ∨
    (Exponential (x.shortest.write .canonical) ∧
      (positionalLimit.magnitude ≤ x.magnitude ∨ x.magnitude < positionalLeast.magnitude)) := by
  have reduced := shortest_reduced nonzero
  have limit := leading_lt_limit_iff nonzero
  have least := leading_lt_least_iff nonzero
  have bounds : Layout.canonical.positionalFrom = -6 ∧ Layout.canonical.positionalBelow = 21 :=
    ⟨rfl, rfl⟩
  unfold Decimal.write
  rw [bounds.1, bounds.2]
  split
  · next between =>
      obtain ⟨positional, point⟩ := Decimal.positional_canonical reduced
      refine .inl ⟨positional, point, ?_, limit.mp between.2⟩
      rw [← not_lt, ← least]
      omega
  · next outside =>
      refine .inr ⟨Decimal.scientific_canonical reduced (by omega), ?_⟩
      rw [← not_lt, ← limit, ← least]
      omega

end Binary

/-- The text of a finite nonzero number is a canonical numeral behind its sign: in exponential notation
just if the number is as large as `1e21` or smaller than `1e-6`, as numbers, and positional without a
point just if it is an integer below `1e21`. -/
theorem numberText_canonical {upper lower : Binary64} (roundsUpper : Binary.RoundsTo (10 ^ 21) upper)
    (roundsLower : Binary.RoundsTo (1 / 10 ^ 6) lower) {x : Binary64} (finite : x.isFinite = true)
    (nonzero : x.isZero = false) :
    ∃ body, (numberText x).toList = signed x.negative body ∧
      (Positional body ∨ Exponential body) ∧
      (Exponential body ↔ upper.toRat ≤ |x.toRat| ∨ |x.toRat| < lower.toRat) ∧
      (Positional body ∧ '.' ∉ body ↔ (∃ k : Nat, |x.toRat| = k) ∧ |x.toRat| < 10 ^ 21) := by
  have significand := Binary.significand_ne_zero nonzero
  cases Binary.roundsTo_limit_iff.mp roundsUpper
  cases Binary.roundsTo_least_iff.mp roundsLower
  have upperValue : Binary.positionalLimit.toRat = Binary.positionalLimit.magnitude := rfl
  have lowerValue : Binary.positionalLeast.toRat = Binary.positionalLeast.magnitude := rfl
  have limit := Binary.magnitude_positionalLimit
  refine ⟨x.shortest.write .canonical, ?_, ?_⟩
  · rw [numberText, String.toList_ofList, Binary.text_of_isFinite finite nonzero]
  · rw [Binary.abs_toRat, upperValue, lowerValue, Binary.integral_iff_shortest significand, ← limit]
    rcases Binary.write_shortest_cases significand with
      ⟨positional, point, least, below⟩ | ⟨exponential, outside⟩
    · refine ⟨.inl positional, ?_, ?_⟩
      · simp only [positional.not_exponential, false_iff, not_or, not_le, not_lt]
        exact ⟨below, least⟩
      · simp only [positional, point, below, true_and, and_true, not_lt]
    · have notPositional : ¬ Positional (x.shortest.write .canonical) :=
        fun positional => positional.not_exponential exponential
      refine ⟨.inr exponential, by simp only [exponential, outside], ?_⟩
      simp only [notPositional, false_and, false_iff, not_and]
      intro whole below
      rcases outside with above | small
      · exact absurd below (not_lt.mpr above)
      · have leading := (Binary.leading_lt_least_iff significand).mpr small
        have length := x.shortest.length_text_pos
        unfold Decimal.leading at leading
        omega

/-- The numbers next below `1e21` and next below `1e-6`. -/
def belowLimit : Binary64 := .ofBits 0x444B1AE4D6E2EF4F

def belowLeast : Binary64 := .ofBits 0x3EB0C6F7A0B5ED8C

theorem belowLimit_text :
    Binary.RoundsTo (10 ^ 21) Binary.positionalLimit ∧
    Binary.RoundsTo (1 / 10 ^ 6) Binary.positionalLeast ∧
    numberText belowLimit = "999999999999999900000" ∧
    Positional "999999999999999900000".toList ∧ (∃ k : Nat, |belowLimit.toRat| = k) ∧
    numberText belowLeast = "9.999999999999997e-7" ∧
    Exponential "9.999999999999997e-7".toList ∧
    (Binary.positionalLimit.toRat ≤ |belowLeast.toRat| ∨
      |belowLeast.toRat| < Binary.positionalLeast.toRat) := by
  have roundsUpper := Binary.roundsTo_limit_iff.mpr rfl
  have roundsLower := Binary.roundsTo_least_iff.mpr rfl
  have large : numberText belowLimit = "999999999999999900000" := by decide +kernel
  have small : numberText belowLeast = "9.999999999999997e-7" := by decide +kernel
  obtain ⟨_, largeText, largeForm, _, integral⟩ :=
    numberText_canonical (x := belowLimit) roundsUpper roundsLower (by decide) (by decide)
  obtain ⟨_, smallText, smallForm, limits, _⟩ :=
    numberText_canonical (x := belowLeast) roundsUpper roundsLower (by decide) (by decide)
  rw [large, show belowLimit.negative = false by decide] at largeText
  rw [small, show belowLeast.negative = false by decide] at smallText
  cases largeText
  cases smallText
  have positional : Positional "999999999999999900000".toList := by
    refine largeForm.resolve_right fun exponential => ?_
    exact absurd exponential.mem (by decide)
  have exponential : Exponential "9.999999999999997e-7".toList := by
    refine smallForm.resolve_left fun positional => ?_
    exact positional.not_mem (by decide)
  exact ⟨roundsUpper, roundsLower, large, positional,
    (integral.mp ⟨positional, by decide⟩).1, small, exponential, limits.mp exponential⟩

end LooseValue
