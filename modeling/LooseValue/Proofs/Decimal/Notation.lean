import LooseValue.Proofs.Decimal.Reading

/-!
# Canonical notation

The grammar of canonical numerals: a positional numeral has no superfluous zero in front and none at
the end of its fraction, and an exponential one has a single digit, not zero, before the point. The
text of a decimal whose last digit is not zero is of this grammar in either notation, and the exponent
of its leading digit tells between which powers of ten it lies.
-/

set_option autoImplicit false

namespace LooseValue

namespace Numeral

/-- Digits of which the first is not zero. -/
structure IsLead (cs : List Char) : Prop where
  digits : IsDigits cs
  leading : cs.head? ≠ some '0'

/-- Digits of which the last is not zero. -/
structure IsFraction (cs : List Char) : Prop where
  digits : IsDigits cs
  trailing : cs.getLast? ≠ some '0'

inductive IsWhole : List Char → Prop where
  | zero : IsWhole ['0']
  | lead {cs : List Char} : IsLead cs → IsWhole cs

inductive Positional : List Char → Prop where
  | whole {ws : List Char} : IsWhole ws → Positional ws
  | pointed {ws fs : List Char} : IsWhole ws → IsFraction fs → Positional (ws ++ '.' :: fs)

/-- One digit, and a fraction or none. -/
inductive IsMantissa : List Char → Prop where
  | digit {c : Char} : IsLead [c] → IsMantissa [c]
  | pointed {c : Char} {fs : List Char} : IsLead [c] → IsFraction fs → IsMantissa (c :: '.' :: fs)

/-- A mantissa and a signed exponent. -/
inductive Exponential : List Char → Prop where
  | scaled {ms xs : List Char} {sign : Char} :
      IsMantissa ms → sign = '+' ∨ sign = '-' → IsLead xs → Exponential (ms ++ 'e' :: sign :: xs)

variable {cs ws fs : List Char}

theorem IsWhole.digits (whole : IsWhole ws) : IsDigits ws := by
  cases whole with
  | zero => decide
  | lead lead => exact lead.digits

theorem Positional.not_mem (positional : Positional cs) : 'e' ∉ cs := by
  cases positional with
  | whole whole => exact whole.digits.not_mem 'e' rfl
  | pointed whole fraction =>
      have before := whole.digits.not_mem 'e' rfl
      have after := fraction.digits.not_mem 'e' rfl
      simp [before, after]

theorem Exponential.mem (exponential : Exponential cs) : 'e' ∈ cs := by
  cases exponential with
  | scaled mantissa sign exponent => simp

/-- The two notations exclude each other. -/
theorem Positional.not_exponential (positional : Positional cs) : ¬ Exponential cs :=
  fun exponential => positional.not_mem exponential.mem

theorem IsLead.append (lead : IsLead ws) (digits : ∀ c ∈ fs, c.isDigit = true) :
    IsLead (ws ++ fs) where
  digits := lead.digits.append digits
  leading := by
    rw [List.head?_append_of_ne_nil _ lead.digits.1]
    exact lead.leading

theorem IsFraction.prepend (digits : ∀ c ∈ ws, c.isDigit = true) (fraction : IsFraction fs) :
    IsFraction (ws ++ fs) where
  digits := .prepend digits fraction.digits
  trailing := by
    rw [List.getLast?_append_of_ne_nil _ fraction.digits.1]
    exact fraction.trailing

/-! ## First and last digits -/

private theorem digitChar_ne_zero : ∀ n < 10, n ≠ 0 → n.digitChar ≠ '0' := by
  decide

private theorem head?_toDigits_ne_zero {n : Nat} (nonzero : n ≠ 0) :
    (Nat.toDigits 10 n).head? ≠ some '0' := by
  induction n using Nat.strongRecOn with
  | ind n ih =>
      rw [Nat.toDigits_eq_if (by omega)]
      split
      · next digit =>
          rw [List.head?_cons, ne_eq, Option.some.injEq]
          exact digitChar_ne_zero n digit nonzero
      · next several =>
          rw [List.head?_append_of_ne_nil _ Nat.toDigits_ne_nil]
          exact ih (n / 10) (by omega) (by omega)

private theorem getLast?_toDigits (n : Nat) :
    (Nat.toDigits 10 n).getLast? = some (n % 10).digitChar := by
  rw [Nat.toDigits_eq_if (by omega)]
  split
  · next digit => rw [Nat.mod_eq_of_lt digit, List.getLast?_singleton]
  · rw [List.getLast?_concat]

private theorem isLead_toDigits {n : Nat} (nonzero : n ≠ 0) : IsLead (Nat.toDigits 10 n) where
  digits := isDigits_toDigits n
  leading := head?_toDigits_ne_zero nonzero

private theorem isFraction_toDigits {n : Nat} (reduced : n % 10 ≠ 0) :
    IsFraction (Nat.toDigits 10 n) where
  digits := isDigits_toDigits n
  trailing := by
    rw [getLast?_toDigits, ne_eq, Option.some.injEq]
    exact digitChar_ne_zero _ (Nat.mod_lt _ (by omega)) reduced

end Numeral

/-! ## Written decimals -/

namespace Decimal

open Numeral

variable {d : Decimal}

theorem digits_ne_zero (reduced : d.digits % 10 ≠ 0) : d.digits ≠ 0 := by
  intro zero
  rw [zero] at reduced
  contradiction

private theorem isLead_text (nonzero : d.digits ≠ 0) : IsLead d.text := isLead_toDigits nonzero

private theorem isFraction_text (reduced : d.digits % 10 ≠ 0) : IsFraction d.text :=
  isFraction_toDigits reduced

private theorem isLead_take (nonzero : d.digits ≠ 0) (places : Nat) (some : places ≠ 0) :
    IsLead (d.text.take places) where
  digits := by
    refine ⟨?_, fun c member => d.isDigits_text.2 c (List.mem_of_mem_take member)⟩
    rw [ne_eq, List.take_eq_nil_iff, not_or]
    exact ⟨some, d.isDigits_text.1⟩
  leading := by
    rw [List.head?_take, if_neg some]
    exact (isLead_text nonzero).leading

private theorem isFraction_drop (reduced : d.digits % 10 ≠ 0) (places : Nat)
    (few : places < d.text.length) : IsFraction (d.text.drop places) where
  digits := by
    refine ⟨?_, fun c member => d.isDigits_text.2 c (List.mem_of_mem_drop member)⟩
    rw [ne_eq, List.drop_eq_nil_iff]
    omega
  trailing := by
    rw [List.getLast?_drop, if_neg (by omega)]
    exact (isFraction_text reduced).trailing

/-- The positional text is canonical, and has a point just if there are digits behind the units. -/
theorem positional_canonical (reduced : d.digits % 10 ≠ 0) :
    Positional (d.positional .canonical) ∧ ('.' ∈ d.positional .canonical ↔ d.exponent < 0) := by
  have nonzero := digits_ne_zero reduced
  have lead := isLead_text nonzero
  unfold positional
  simp only
  split
  · next whole =>
      have padded := lead.append (isDigit_of_mem_replicate d.exponent.toNat)
      rw [show Layout.canonical.wholeSuffix = [] from rfl, List.append_nil]
      refine ⟨.whole (.lead padded), ?_⟩
      have pointless := padded.digits.not_mem '.' rfl
      simp only [pointless, false_iff]
      omega
  · next fractional =>
      have behind : d.exponent < 0 := by omega
      split
      · next inside =>
          refine ⟨.pointed (.lead (isLead_take nonzero _ (by omega)))
            (isFraction_drop reduced _ (by omega)), ?_⟩
          simp [behind]
      · have zeros := isDigit_of_mem_replicate (-(d.exponent + d.text.length)).toNat
        refine ⟨.pointed .zero (.prepend zeros (isFraction_text reduced)), ?_⟩
        simp [behind]

private theorem isMantissa_pointed (reduced : d.digits % 10 ≠ 0) : IsMantissa (pointed d.text) := by
  have nonzero := digits_ne_zero reduced
  have lead := isLead_take nonzero 1 (by omega)
  have fraction := isFraction_drop reduced 1
  match written : d.text with
  | [] => exact absurd written d.isDigits_text.1
  | [c] =>
      rw [written] at lead
      exact .digit lead
  | c :: next :: rest =>
      rw [written] at lead fraction
      exact .pointed lead (fraction (by simp))

theorem scientific_canonical (reduced : d.digits % 10 ≠ 0) (scaled : d.leading ≠ 0) :
    Exponential (d.scientific .canonical) := by
  have exponent := isLead_toDigits (n := d.leading.natAbs) (by omega)
  unfold scientific
  simp only
  split
  · rw [List.append_assoc]
    exact .scaled (isMantissa_pointed reduced) (.inr rfl) exponent
  · rw [List.append_assoc]
    exact .scaled (isMantissa_pointed reduced) (.inl rfl) exponent

/-! ## Magnitudes -/

private theorem digits_lt (d : Decimal) : d.digits < 10 ^ d.text.length :=
  (Nat.length_toDigits_le_iff (by omega) d.length_text_pos).mp le_rfl

private theorem le_digits (nonzero : d.digits ≠ 0) : 10 ^ (d.text.length - 1) ≤ d.digits := by
  by_cases several : 1 < d.text.length
  · by_contra less
    have shorter := (Nat.length_toDigits_le_iff (b := 10) (by omega)
      (show 0 < d.text.length - 1 by omega)).mpr (Nat.lt_of_not_le less)
    have length : (Nat.toDigits 10 d.digits).length = d.text.length := rfl
    omega
  · have positive := d.length_text_pos
    have single : d.text.length - 1 = 0 := by omega
    rw [single]
    omega

/-- The exponent of the leading digit decides on which side of a power of ten the decimal lies. -/
theorem leading_lt_iff (nonzero : d.digits ≠ 0) (power : Int) :
    d.leading < power ↔ d.toRat < 10 ^ power := by
  have positive := d.length_text_pos
  have ten : (0 : ℚ) < 10 ^ d.exponent := by positivity
  constructor
  · intro below
    calc d.toRat
        < 10 ^ d.text.length * 10 ^ d.exponent := by
          rw [toRat]
          exact mul_lt_mul_of_pos_right (by exact_mod_cast d.digits_lt) ten
      _ = 10 ^ (d.leading + 1) := by
          rw [← zpow_natCast, ← zpow_add₀ (by norm_num), leading]
          congr 1
          omega
      _ ≤ 10 ^ power := zpow_le_zpow_right₀ (by norm_num) (by omega)
  · intro below
    by_contra above
    refine absurd below (not_lt.mpr ?_)
    calc (10 : ℚ) ^ power
        ≤ 10 ^ d.leading := zpow_le_zpow_right₀ (by norm_num) (by omega)
      _ = 10 ^ (d.text.length - 1) * 10 ^ d.exponent := by
          rw [← zpow_natCast, ← zpow_add₀ (by norm_num), leading]
          congr 1
          omega
      _ ≤ d.toRat := by
          rw [toRat]
          exact mul_le_mul_of_nonneg_right (by exact_mod_cast le_digits nonzero) ten.le

end Decimal

end LooseValue
