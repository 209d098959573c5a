import Mathlib.Tactic.FieldSimp
import LooseValue.Number.Text
import LooseValue.Proofs.Decimal.Shortest

/-!
# Reading numerals

A numeral is an optional sign, digits, an optional fraction after a point, and an optional exponent
after an `e`. The reader gives the exact rational that a numeral denotes, and refuses any other text.
A decimal that is written out, in positional or in scientific notation, is read back as itself.
-/

set_option autoImplicit false

namespace LooseValue

namespace Numeral

/-- A nonempty run of decimal digits. -/
def IsDigits (cs : List Char) : Prop := cs ≠ [] ∧ ∀ c ∈ cs, c.isDigit = true

instance (cs : List Char) : Decidable (IsDigits cs) :=
  decidable_of_iff ((!cs.isEmpty && cs.all Char.isDigit) = true) (by simp [IsDigits])

def digits? (cs : List Char) : Option Nat :=
  if IsDigits cs then some (Nat.ofDigitChars 10 cs 0) else none

/-- An optional sign, and what follows it. -/
def sign : List Char → Bool × List Char
  | '-' :: cs => (true, cs)
  | '+' :: cs => (false, cs)
  | cs => (false, cs)

/-- What stands before the first mark, and what follows the mark if there is one. -/
def cut (mark : Char) : List Char → List Char × Option (List Char)
  | [] => ([], none)
  | c :: cs =>
      if c = mark then ([], some cs)
      else
        let (before, after) := cut mark cs
        (c :: before, after)

def exponent? (cs : List Char) : Option Int :=
  let (negative, magnitude) := sign cs
  (digits? magnitude).map fun (n : Nat) => if negative then -(n : Int) else n

/-- Digits with an optional fraction. -/
def mantissa? (cs : List Char) : Option ℚ :=
  match cut '.' cs with
  | (whole, none) => (digits? whole).map fun (n : Nat) => (n : ℚ)
  | (whole, some fraction) =>
      match digits? whole, digits? fraction with
      | some n, some m => some ((n : ℚ) + m / 10 ^ fraction.length)
      | _, _ => none

def unsigned? (cs : List Char) : Option ℚ :=
  match cut 'e' cs with
  | (mantissa, none) => mantissa? mantissa
  | (mantissa, some exponent) =>
      match mantissa? mantissa, exponent? exponent with
      | some m, some e => some (m * 10 ^ e)
      | _, _ => none

/-- The rational that a numeral denotes. -/
def value? (cs : List Char) : Option ℚ :=
  let (negative, magnitude) := sign cs
  (unsigned? magnitude).map (withSign negative)

/-! ## Parts -/

variable {ws fs cs : List Char}

theorem IsDigits.append (first : IsDigits ws) (second : ∀ c ∈ fs, c.isDigit = true) :
    IsDigits (ws ++ fs) :=
  ⟨List.append_ne_nil_of_left_ne_nil first.1 fs, List.forall_mem_append.mpr ⟨first.2, second⟩⟩

theorem IsDigits.prepend (first : ∀ c ∈ ws, c.isDigit = true) (second : IsDigits fs) :
    IsDigits (ws ++ fs) :=
  ⟨List.append_ne_nil_of_right_ne_nil ws second.1, List.forall_mem_append.mpr ⟨first, second.2⟩⟩

theorem IsDigits.not_mem (digits : IsDigits ws) (mark : Char) (other : mark.isDigit = false) :
    mark ∉ ws := by
  intro member
  rw [digits.2 mark member] at other
  contradiction

theorem isDigits_toDigits (n : Nat) : IsDigits (Nat.toDigits 10 n) :=
  ⟨Nat.toDigits_ne_nil, fun _ member => Nat.isDigit_of_mem_toDigits (by omega) (by omega) member⟩

theorem isDigit_of_mem_replicate (n : Nat) : ∀ c ∈ List.replicate n '0', c.isDigit = true := by
  intro c member
  rw [List.eq_of_mem_replicate member]
  rfl

private theorem digits?_of_isDigits (digits : IsDigits ws) :
    digits? ws = some (Nat.ofDigitChars 10 ws 0) := if_pos digits

/-- Digits that continue others shift these to the left. -/
theorem ofDigitChars_append_eq (ws fs : List Char) :
    Nat.ofDigitChars 10 (ws ++ fs) 0 =
      Nat.ofDigitChars 10 ws 0 * 10 ^ fs.length + Nat.ofDigitChars 10 fs 0 := by
  rw [Nat.ofDigitChars_append, Nat.ofDigitChars_eq_ofDigitChars_zero, Nat.mul_comm]

private theorem ofDigitChars_replicate_append (zeros : Nat) (fs : List Char) :
    Nat.ofDigitChars 10 (List.replicate zeros '0' ++ fs) 0 = Nat.ofDigitChars 10 fs 0 := by
  rw [Nat.ofDigitChars_append, Nat.ofDigitChars_replicate_zero, Nat.mul_zero]

private theorem sign_of_isDigit {c : Char} (digit : c.isDigit = true) :
    sign (c :: cs) = (false, c :: cs) := by
  unfold sign
  split
  · next same =>
      cases same
      contradiction
  · next same =>
      cases same
      contradiction
  · rfl

private theorem cut_of_not_mem {mark : Char} (absent : mark ∉ cs) : cut mark cs = (cs, none) := by
  induction cs with
  | nil => rfl
  | cons c cs ih =>
      rw [List.mem_cons, not_or] at absent
      rw [cut, if_neg (Ne.symm absent.1), ih absent.2]

private theorem cut_append {mark : Char} (absent : mark ∉ cs) (rest : List Char) :
    cut mark (cs ++ mark :: rest) = (cs, some rest) := by
  induction cs with
  | nil => simp [cut]
  | cons c cs ih =>
      rw [List.mem_cons, not_or] at absent
      rw [List.cons_append, cut, if_neg (Ne.symm absent.1), ih absent.2]

/-! ## Numerals from their parts -/

private theorem mantissa?_whole (whole : IsDigits ws) :
    mantissa? ws = some (Nat.ofDigitChars 10 ws 0 : ℚ) := by
  simp only [mantissa?, cut_of_not_mem (whole.not_mem '.' rfl), digits?_of_isDigits whole,
    Option.map_some]

/-- The point divides the number that all the digits denote. -/
theorem mantissa?_pointed (whole : IsDigits ws) (fraction : IsDigits fs) :
    mantissa? (ws ++ '.' :: fs) =
      some ((Nat.ofDigitChars 10 (ws ++ fs) 0 : ℚ) / 10 ^ fs.length) := by
  simp only [mantissa?, cut_append (whole.not_mem '.' rfl), digits?_of_isDigits whole,
    digits?_of_isDigits fraction, ofDigitChars_append_eq]
  push_cast
  rw [add_div, mul_div_cancel_right₀ _ (by positivity)]

private theorem unsigned?_of_mantissa (absent : 'e' ∉ cs) : unsigned? cs = mantissa? cs := by
  rw [unsigned?, cut_of_not_mem absent]

private theorem unsigned?_whole (whole : IsDigits ws) :
    unsigned? ws = some (Nat.ofDigitChars 10 ws 0 : ℚ) := by
  rw [unsigned?_of_mantissa (whole.not_mem 'e' rfl), mantissa?_whole whole]

private theorem unsigned?_pointed (whole : IsDigits ws) (fraction : IsDigits fs) :
    unsigned? (ws ++ '.' :: fs) =
      some ((Nat.ofDigitChars 10 (ws ++ fs) 0 : ℚ) / 10 ^ fs.length) := by
  rw [unsigned?_of_mantissa ?_, mantissa?_pointed whole fraction]
  simp [whole.not_mem, fraction.not_mem]

private theorem unsigned?_scaled {m : ℚ} {e : Int} {exponent : List Char} (absent : 'e' ∉ cs)
    (mantissa : mantissa? cs = some m) (scaled : exponent? exponent = some e) :
    unsigned? (cs ++ 'e' :: exponent) = some (m * 10 ^ e) := by
  simp only [unsigned?, cut_append absent, mantissa, scaled]

private theorem exponent?_signed (e : Int) :
    exponent? ((if e < 0 then ['-'] else ['+']) ++ Nat.toDigits 10 e.natAbs) = some e := by
  have digits := digits?_of_isDigits (isDigits_toDigits e.natAbs)
  rw [Nat.ofDigitChars_ten_toDigits] at digits
  split
  · simp only [List.singleton_append, exponent?, sign, digits, Option.map_some, if_true]
    congr 1
    omega
  · simp only [List.singleton_append, exponent?, sign, digits, Option.map_some, Bool.false_eq_true,
      if_false]
    congr 1
    omega

end Numeral

/-! ## Decimals -/

namespace Decimal

open Numeral

variable {ws : List Char}

theorem isDigits_text (d : Decimal) : IsDigits d.text := isDigits_toDigits d.digits

private theorem ofDigitChars_text (d : Decimal) : Nat.ofDigitChars 10 d.text 0 = d.digits :=
  Nat.ofDigitChars_ten_toDigits

theorem length_text_pos (d : Decimal) : 0 < d.text.length := Nat.length_toDigits_pos

/-- A decimal as the number of its digits, divided by the places of its fraction. -/
theorem toRat_eq_div {d : Decimal} {places : Nat} (negative : d.exponent = -(places : Int)) :
    d.toRat = d.digits / 10 ^ places := by
  rw [toRat, negative, zpow_neg, zpow_natCast, div_eq_mul_inv]

private theorem toRat_eq_mul {d : Decimal} {zeros : Nat} (whole : d.exponent = zeros) :
    d.toRat = d.digits * 10 ^ zeros := by
  rw [toRat, whole, zpow_natCast]

private theorem unsigned?_positional (d : Decimal) :
    unsigned? (d.positional .canonical) = some d.toRat := by
  have digits := d.isDigits_text
  unfold positional
  simp only
  split
  · -- An integer, with its trailing zeros.
    next whole =>
      have padded := digits.append (isDigit_of_mem_replicate d.exponent.toNat)
      rw [show Layout.canonical.wholeSuffix = [] from rfl, List.append_nil, unsigned?_whole padded,
        ofDigitChars_append_eq,
        ofDigitChars_text, Nat.ofDigitChars_replicate_zero, List.length_replicate,
        toRat_eq_mul (Int.toNat_of_nonneg whole).symm]
      push_cast
      ring_nf
  · split
    · -- The point stands between digits.
      next fractional inside =>
        have left : IsDigits (d.text.take (d.exponent + d.text.length).toNat) := by
          refine ⟨?_, fun c member => digits.2 c (List.mem_of_mem_take member)⟩
          rw [ne_eq, List.take_eq_nil_iff, not_or]
          exact ⟨by omega, digits.1⟩
        have right : IsDigits (d.text.drop (d.exponent + d.text.length).toNat) := by
          refine ⟨?_, fun c member => digits.2 c (List.mem_of_mem_drop member)⟩
          rw [ne_eq, List.drop_eq_nil_iff]
          omega
        rw [unsigned?_pointed left right, List.take_append_drop, ofDigitChars_text, ← toRat_eq_div]
        rw [List.length_drop]
        omega
    · -- The fraction begins with zeros.
      next fractional outside =>
        have zero : IsDigits ['0'] := by decide
        have zeros := isDigit_of_mem_replicate (-(d.exponent + d.text.length)).toNat
        rw [List.cons_append, List.cons_append, ← List.singleton_append,
          unsigned?_pointed zero (digits.prepend zeros), List.singleton_append, ← List.cons_append,
          ← List.replicate_succ, ofDigitChars_replicate_append, ofDigitChars_text, ← toRat_eq_div]
        rw [List.length_append, List.length_replicate]
        omega

private theorem not_mem_pointed (digits : IsDigits ws) : 'e' ∉ pointed ws := by
  have absent := digits.not_mem 'e' rfl
  unfold pointed
  split <;> simp_all

private theorem mantissa?_pointed_digits (digits : IsDigits ws) :
    mantissa? (pointed ws) = some ((Nat.ofDigitChars 10 ws 0 : ℚ) / 10 ^ (ws.length - 1)) := by
  match ws, digits with
  | [], digits => exact absurd rfl digits.1
  | [digit], digits =>
      rw [pointed, mantissa?_whole digits]
      simp
  | digit :: next :: rest, digits =>
      have first : IsDigits [digit] := ⟨by simp, by simpa using digits.2 digit List.mem_cons_self⟩
      have others : IsDigits (next :: rest) :=
        ⟨by simp, fun c member => digits.2 c (List.mem_cons_of_mem _ member)⟩
      exact mantissa?_pointed first others

private theorem unsigned?_scientific (d : Decimal) :
    unsigned? (d.scientific .canonical) = some d.toRat := by
  have digits := d.isDigits_text
  have positive := d.length_text_pos
  have shifted : d.leading = d.exponent + (d.text.length - 1 : Nat) := by
    unfold leading
    omega
  unfold scientific
  rw [show Layout.canonical.exponentPlus = ['+'] from rfl, List.append_assoc, List.cons_append,
    unsigned?_scaled (not_mem_pointed digits) (mantissa?_pointed_digits digits)
      (exponent?_signed d.leading),
    ofDigitChars_text, toRat, shifted, zpow_add₀ (by norm_num), zpow_natCast]
  field_simp

private theorem unsigned?_write (d : Decimal) : unsigned? (d.write .canonical) = some d.toRat := by
  unfold write
  split
  · exact d.unsigned?_positional
  · exact d.unsigned?_scientific

/-- Whatever the notation, the text of a decimal begins with a digit. -/
theorem exists_write_eq_cons (layout : Layout) (d : Decimal) :
    ∃ c cs, c.isDigit = true ∧ d.write layout = c :: cs := by
  obtain ⟨c, cs, text⟩ := List.exists_cons_of_ne_nil d.isDigits_text.1
  have digit : c.isDigit = true := d.isDigits_text.2 c (by simp [text])
  unfold write
  split
  · unfold positional
    simp only
    split
    · exact ⟨c, _, digit, by rw [text]; rfl⟩
    · split
      · next fractional inside =>
          have positive : (d.exponent + d.text.length).toNat ≠ 0 := by omega
          obtain ⟨places, point⟩ := Nat.exists_eq_succ_of_ne_zero positive
          exact ⟨c, _, digit, by rw [point, text]; rfl⟩
      · exact ⟨'0', _, rfl, rfl⟩
  · unfold scientific
    rw [text]
    cases cs with
    | nil => exact ⟨c, _, digit, rfl⟩
    | cons => exact ⟨c, _, digit, rfl⟩

/-- The characters of the canonical text of a decimal that are no digits. -/
def marks : List Char := ['.', 'e', '+', '-']

private theorem mem_pointed {c : Char} (member : c ∈ pointed ws) : c ∈ ws ∨ c = '.' := by
  match ws, member with
  | [_], member => exact .inl member
  | _ :: _ :: _, member =>
      simp only [pointed, List.mem_cons] at member ⊢
      tauto

private theorem mem_positional {d : Decimal} {c : Char} (member : c ∈ d.positional .canonical) :
    c.isDigit = true ∨ c ∈ marks := by
  have digits := d.isDigits_text.2
  unfold positional at member
  simp only at member
  split at member
  · rw [show Layout.canonical.wholeSuffix = [] from rfl, List.append_nil, List.mem_append] at member
    rcases member with digit | zero
    · exact .inl (digits c digit)
    · exact .inl (isDigit_of_mem_replicate _ c zero)
  · split at member
    · rw [List.mem_append, List.mem_cons] at member
      rcases member with digit | rfl | digit
      · exact .inl (digits c (List.mem_of_mem_take digit))
      · exact .inr (by decide)
      · exact .inl (digits c (List.mem_of_mem_drop digit))
    · rw [List.cons_append, List.cons_append, List.mem_cons, List.mem_cons, List.mem_append] at member
      rcases member with rfl | rfl | zero | digit
      · exact .inl rfl
      · exact .inr (by decide)
      · exact .inl (isDigit_of_mem_replicate _ c zero)
      · exact .inl (digits c digit)

private theorem mem_scientific {d : Decimal} {c : Char} (member : c ∈ d.scientific .canonical) :
    c.isDigit = true ∨ c ∈ marks := by
  unfold scientific at member
  simp only [List.mem_append, List.mem_cons] at member
  rcases member with (pointed | rfl | sign) | digit
  · rcases mem_pointed pointed with digit | rfl
    · exact .inl (d.isDigits_text.2 c digit)
    · exact .inr (by decide)
  · exact .inr (by decide)
  · refine .inr ?_
    split at sign
    · rw [List.mem_singleton.mp sign]
      decide
    · rw [List.mem_singleton.mp sign]
      decide
  · exact .inl ((isDigits_toDigits _).2 c digit)

theorem mem_write {d : Decimal} {c : Char} (member : c ∈ d.write .canonical) :
    c.isDigit = true ∨ c ∈ marks := by
  unfold write at member
  split at member
  · exact mem_positional member
  · exact mem_scientific member

theorem value?_signed_write (negative : Bool) (d : Decimal) :
    value? (signed negative (d.write .canonical)) = some (withSign negative d.toRat) := by
  have written := d.unsigned?_write
  obtain ⟨c, cs, digit, starts⟩ := d.exists_write_eq_cons .canonical
  cases negative with
  | false =>
      rw [starts] at written
      simp only [signed, Bool.false_eq_true, if_false, starts, value?, sign_of_isDigit digit,
        written, Option.map_some]
  | true => simp only [signed, if_true, value?, sign, written, Option.map_some]

example : (⟨15, -8⟩ : Decimal).write .canonical = "1.5e-7".toList ∧
    value? "1.5e-7".toList = some (3 / 20000000) := by
  decide +kernel

end Decimal

end LooseValue
