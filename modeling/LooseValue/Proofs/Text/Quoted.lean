import Mathlib.Data.List.Basic
import LooseValue.Text.Quoted

/-!
# Quoted texts tell texts apart

Every character is written so that it shows where its writing ends, and no two characters are
written alike. None is written with a quotation mark in front, so that the first bare quotation mark
ends the text: a quoted text can be told from whatever follows it.
-/

set_option autoImplicit false

namespace LooseValue

/-- Two texts that run on to where each stops are told from what follows them. -/
theorem append_inj_of_stops {inside : Char → Prop} {text other rest suffix : List Char}
    (textInside : ∀ c ∈ text, inside c) (otherInside : ∀ c ∈ other, inside c)
    (restStops : ∀ c ∈ rest.head?, ¬ inside c) (suffixStops : ∀ c ∈ suffix.head?, ¬ inside c)
    (same : text ++ rest = other ++ suffix) : text = other ∧ rest = suffix := by
  induction text generalizing other with
  | nil =>
      cases other with
      | nil => exact ⟨rfl, same⟩
      | cons d ds =>
          have starts : d ∈ rest.head? := by rw [← List.nil_append rest, same]; rfl
          exact absurd (otherInside d List.mem_cons_self) (restStops d starts)
  | cons c cs ih =>
      cases other with
      | nil =>
          have starts : c ∈ suffix.head? := by rw [← List.nil_append suffix, ← same]; rfl
          exact absurd (textInside c List.mem_cons_self) (suffixStops c starts)
      | cons d ds =>
          rw [List.cons_append, List.cons_append, List.cons.injEq] at same
          obtain ⟨rfl, others⟩ := same
          obtain ⟨rfl, rests⟩ := ih (List.forall_mem_of_forall_mem_cons textInside)
            (List.forall_mem_of_forall_mem_cons otherInside) others
          exact ⟨rfl, rests⟩

/-! ## Hexadecimal digits -/

def hexDigitValue (c : Char) : Nat :=
  if c.isDigit then c.toNat - '0'.toNat else c.toNat - 'a'.toNat + 10

def hexValue (digits : List Char) : Nat := digits.foldl (fun n c => 16 * n + hexDigitValue c) 0

private theorem hexDigitValue_digitChar {n : Nat} (bound : n < 16) :
    hexDigitValue n.digitChar = n := by
  have all : ∀ i : Fin 16, hexDigitValue i.val.digitChar = i.val := by decide
  exact all ⟨n, bound⟩

private theorem digitChar_ne_brace {n : Nat} (bound : n < 16) : '\x7d' ≠ n.digitChar := by
  have all : ∀ i : Fin 16, '\x7d' ≠ i.val.digitChar := by decide
  exact all ⟨n, bound⟩

private theorem toDigits_sixteen_of_le {n : Nat} (large : 16 ≤ n) :
    Nat.toDigits 16 n = Nat.toDigits 16 (n / 16) ++ [(n % 16).digitChar] :=
  Nat.toDigits_of_base_le (by decide) large

private theorem hexValue_toDigits (n : Nat) : hexValue (Nat.toDigits 16 n) = n := by
  induction n using Nat.strongRecOn with
  | ind n ih =>
      by_cases small : n < 16
      · rw [Nat.toDigits_of_lt_base small]
        simp [hexValue, hexDigitValue_digitChar small]
      · have large := Nat.le_of_not_lt small
        have quotient := ih (n / 16) (by omega)
        rw [hexValue] at quotient
        rw [toDigits_sixteen_of_le large, hexValue, List.foldl_append, quotient]
        simp only [List.foldl_cons, List.foldl_nil, hexDigitValue_digitChar (Nat.mod_lt n (by decide))]
        omega

private theorem brace_not_mem_toDigits (n : Nat) : '\x7d' ∉ Nat.toDigits 16 n := by
  induction n using Nat.strongRecOn with
  | ind n ih =>
      by_cases small : n < 16
      · rw [Nat.toDigits_of_lt_base small, List.mem_singleton]
        exact digitChar_ne_brace small
      · rw [toDigits_sixteen_of_le (Nat.le_of_not_lt small), List.mem_append, List.mem_singleton,
          not_or]
        exact ⟨ih (n / 16) (by omega), digitChar_ne_brace (Nat.mod_lt n (by decide))⟩

/-! ## Characters -/

/-- The characters that are escaped by a letter of their own. -/
def lettered : List (Char × Char) :=
  [('"', '"'), ('\\', '\\'), ('\n', 'n'), ('\r', 'r'), ('\t', 't'), ('\x00', '0')]

/-- The ways in which a character is written. -/
inductive Escapes (c : Char) : List Char → Prop where
  | bare : c ≠ '"' → c ≠ '\\' → Escapes c [c]
  | letter {letter : Char} : (c, letter) ∈ lettered → Escapes c ['\\', letter]
  | codePoint : Escapes c (escapeCodePoint c)

private theorem escapes_escape (c : Char) : Escapes c (escape c) := by
  unfold escape
  split
  · next same => exact .letter (by subst same; decide)
  · next notQuote =>
      split
      · next same => exact .letter (by subst same; decide)
      · next notBackslash =>
          split
          · next same => exact .letter (by subst same; decide)
          split
          · next same => exact .letter (by subst same; decide)
          split
          · next same => exact .letter (by subst same; decide)
          split
          · next same => exact .letter (by subst same; decide)
          split
          · exact .codePoint
          · exact .bare notQuote notBackslash

private theorem escapeCodePoint_append_inj {c d : Char} {rest suffix : List Char}
    (same : escapeCodePoint c ++ rest = escapeCodePoint d ++ suffix) : c = d ∧ rest = suffix := by
  simp only [escapeCodePoint, List.cons_append, List.append_assoc, List.cons.injEq, true_and,
    List.nil_append] at same
  have inside : ∀ e : Char, ∀ digit ∈ Nat.toDigits 16 e.toNat, digit ≠ '\x7d' :=
    fun e digit member brace => brace_not_mem_toDigits e.toNat (brace ▸ member)
  obtain ⟨digits, ends⟩ := append_inj_of_stops (inside c) (inside d) (by simp) (by simp) same
  have values := congrArg hexValue digits
  rw [hexValue_toDigits, hexValue_toDigits] at values
  exact ⟨Char.toNat_inj.mp values, List.tail_eq_of_cons_eq ends⟩

/-- A written character shows where it ends and which character it is. -/
theorem Escapes.append_inj {c d : Char} {one other rest suffix : List Char}
    (first : Escapes c one) (second : Escapes d other) (same : one ++ rest = other ++ suffix) :
    c = d ∧ rest = suffix := by
  have letters : ∀ one ∈ lettered, ∀ other ∈ lettered, one.2 = other.2 → one.1 = other.1 := by
    decide
  have noCode : ∀ pair ∈ lettered, pair.2 ≠ 'u' := by decide
  cases first with
  | bare _ notBackslash =>
      cases second with
      | bare => simpa using same
      | letter => exact absurd (List.head_eq_of_cons_eq same) notBackslash
      | codePoint => exact absurd (List.head_eq_of_cons_eq same) notBackslash
  | letter listed =>
      cases second with
      | bare _ notBackslash => exact absurd (List.head_eq_of_cons_eq same).symm notBackslash
      | letter listed' =>
          have tails := List.tail_eq_of_cons_eq same
          exact ⟨letters _ listed _ listed' (List.head_eq_of_cons_eq tails),
            List.tail_eq_of_cons_eq tails⟩
      | codePoint =>
          exact absurd (List.head_eq_of_cons_eq (List.tail_eq_of_cons_eq same)) (noCode _ listed)
  | codePoint =>
      cases second with
      | bare _ notBackslash => exact absurd (List.head_eq_of_cons_eq same).symm notBackslash
      | letter listed =>
          exact absurd (List.head_eq_of_cons_eq (List.tail_eq_of_cons_eq same)).symm
            (noCode _ listed)
      | codePoint => exact escapeCodePoint_append_inj same

private theorem Escapes.ne_mark {c : Char} {one rest suffix : List Char} (escapes : Escapes c one) :
    one ++ rest ≠ '"' :: suffix := by
  intro same
  cases escapes with
  | bare notQuote => exact notQuote (List.head_eq_of_cons_eq same)
  | letter => exact absurd (List.head_eq_of_cons_eq same) (by decide)
  | codePoint => exact absurd (List.head_eq_of_cons_eq same) (by decide)

/-! ## Texts -/

private theorem quoted_append (text rest : List Char) :
    quoted text ++ rest = '"' :: (text.flatMap escape ++ '"' :: rest) := by
  simp [quoted]

/-- The first bare quotation mark ends the text. -/
theorem flatMap_escape_append_inj {text other rest suffix : List Char}
    (same : text.flatMap escape ++ '"' :: rest = other.flatMap escape ++ '"' :: suffix) :
    text = other ∧ rest = suffix := by
  induction text generalizing other with
  | nil =>
      cases other with
      | nil => exact ⟨rfl, List.tail_eq_of_cons_eq same⟩
      | cons d ds =>
          rw [List.flatMap_cons, List.append_assoc] at same
          exact absurd same.symm (escapes_escape d).ne_mark
  | cons c cs ih =>
      cases other with
      | nil =>
          rw [List.flatMap_cons, List.append_assoc] at same
          exact absurd same (escapes_escape c).ne_mark
      | cons d ds =>
          simp only [List.flatMap_cons, List.append_assoc] at same
          obtain ⟨rfl, others⟩ := (escapes_escape c).append_inj (escapes_escape d) same
          obtain ⟨rfl, rests⟩ := ih others
          exact ⟨rfl, rests⟩

theorem quoted_append_inj {text other rest suffix : List Char}
    (same : quoted text ++ rest = quoted other ++ suffix) : text = other ∧ rest = suffix := by
  rw [quoted_append, quoted_append] at same
  exact flatMap_escape_append_inj (List.tail_eq_of_cons_eq same)

end LooseValue
