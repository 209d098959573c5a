import LooseValue.Primitive
import LooseValue.Proofs.Decimal.Reading

/-!
# Canonical texts tell numbers apart

The canonical text of a finite nonzero number is a numeral, and the rational that it denotes rounds
to the number and to no other. The remaining texts, those of the zeros, the infinities and the
not-a-numbers, are told apart by their letters. So two numbers have one text just if they are equal
as numbers or neither is a number.
-/

set_option autoImplicit false

namespace LooseValue

namespace Binary

variable {x y : Binary64}

private theorem isNaN_of_isFinite {w p : Nat} {x : Binary w p} (finite : x.isFinite = true) :
    x.isNaN = false := by
  unfold isFinite at finite
  unfold isNaN
  simp_all

private theorem isInfinite_of_isFinite (finite : x.isFinite = true) : x.isInfinite = false := by
  unfold isFinite at finite
  unfold isInfinite
  simp_all

private theorem isFinite_of_isZero (zero : x.isZero = true) : x.isFinite = true := by
  unfold isZero at zero
  unfold isFinite
  simp_all

private theorem isNaN_of_isInfinite (infinite : x.isInfinite = true) : x.isNaN = false := by
  unfold isInfinite at infinite
  unfold isNaN
  simp_all

private theorem numericEq_iff :
    x.numericEq y = true ↔
      x.isNaN = false ∧ y.isNaN = false ∧ ((x.isZero = true ∧ y.isZero = true) ∨ x = y) := by
  simp [numericEq, and_assoc]

/-- The sorts of numbers with their texts. -/
theorem text_cases (x : Binary64) :
    (x.isNaN = true ∧ x.text = "NaN".toList) ∨
    (x.isInfinite = true ∧ x.text = signed x.negative "Infinity".toList) ∨
    (x.isZero = true ∧ x.text = ['0']) ∨
    (x.isFinite = true ∧ x.isZero = false ∧
      x.text = signed x.negative (x.shortest.write .canonical)) := by
  unfold text Layout.write
  split
  · next nan => exact .inl ⟨nan, rfl⟩
  · next number =>
      split
      · next infinite => exact .inr (.inl ⟨infinite, rfl⟩)
      · next bounded =>
          have finite : x.isFinite = true := by
            unfold isNaN at number
            unfold isInfinite at bounded
            unfold isFinite
            grind
          split
          · next zero =>
              refine .inr (.inr (.inl ⟨zero, ?_⟩))
              split <;> rfl
          · next nonzero => exact .inr (.inr (.inr ⟨finite, by simpa using nonzero, rfl⟩))

private theorem mem_signed {negative : Bool} {text : List Char} {c : Char}
    (member : c ∈ signed negative text) : c = '-' ∨ c ∈ text := by
  cases negative with
  | false => exact .inr member
  | true => exact List.mem_cons.mp member

/-- No text of a number holds a character that divides or ends the items of a sequence. -/
theorem text_free_of_delimiters (x : Binary64) : ∀ c ∈ x.text, c ≠ ',' ∧ c ≠ ']' := by
  have ofLetters (letters : List Char) (free : letters.all (fun c => c != ',' && c != ']') = true) :
      ∀ c ∈ letters, c ≠ ',' ∧ c ≠ ']' := by
    simpa using free
  have ofDigit : ∀ c : Char, c.isDigit = true → c ≠ ',' ∧ c ≠ ']' := by
    rintro c digit
    constructor <;> rintro rfl <;> contradiction
  intro c member
  rcases x.text_cases with ⟨_, text⟩ | ⟨_, text⟩ | ⟨_, text⟩ | ⟨_, _, text⟩ <;> rw [text] at member
  · exact ofLetters _ rfl c member
  · rcases mem_signed member with rfl | letter
    · decide
    · exact ofLetters _ rfl c letter
  · rw [List.mem_singleton.mp member]
    decide
  · rcases mem_signed member with rfl | written
    · decide
    · exact (Decimal.mem_write written).elim (ofDigit c) (ofLetters Decimal.marks rfl c)

theorem exists_text_eq_cons (x : Binary64) :
    ∃ c cs, (c.isDigit = true ∨ c ∈ ['-', 'N', 'I']) ∧ x.text = c :: cs := by
  rcases x.text_cases with ⟨_, text⟩ | ⟨_, text⟩ | ⟨_, text⟩ | ⟨_, _, text⟩
  · exact ⟨'N', _, .inr (by decide), text⟩
  · cases sign : x.negative with
    | false => exact ⟨'I', _, .inr (by decide), by rw [text, sign]; rfl⟩
    | true => exact ⟨'-', _, .inr (by decide), by rw [text, sign]; rfl⟩
  · exact ⟨'0', _, .inl rfl, text⟩
  · obtain ⟨c, cs, digit, starts⟩ := x.shortest.exists_write_eq_cons .canonical
    cases sign : x.negative with
    | false => exact ⟨c, cs, .inl digit, by rw [text, sign, starts]; rfl⟩
    | true => exact ⟨'-', _, .inr (by decide), by rw [text, sign]; rfl⟩

theorem text_of_isFinite (finite : x.isFinite = true) (nonzero : x.isZero = false) :
    x.text = signed x.negative (x.shortest.write .canonical) := by
  have number := isNaN_of_isFinite finite
  rcases x.text_cases with ⟨nan, _⟩ | ⟨infinite, _⟩ | ⟨zero, _⟩ | ⟨_, _, text⟩
  · rw [number] at nan
    contradiction
  · unfold isInfinite at infinite
    unfold isFinite at finite
    simp_all
  · rw [nonzero] at zero
    contradiction
  · exact text

/-- The rational that the text of a finite nonzero number denotes. -/
theorem value?_text (finite : x.isFinite = true) (nonzero : x.isZero = false) :
    Numeral.value? x.text = some (withSign x.negative x.shortest.toRat) := by
  rw [text_of_isFinite finite nonzero, Decimal.value?_signed_write]

theorem significand_ne_zero (nonzero : x.isZero = false) : x.significand ≠ 0 := by
  rw [ne_eq, significand_eq_zero_iff, nonzero]
  exact Bool.false_ne_true

theorem roundsTo_shortest (finite : x.isFinite = true) (nonzero : x.isZero = false) :
    RoundsTo (withSign x.negative x.shortest.toRat) x :=
  (shortest_encloses (significand_ne_zero nonzero)).roundsTo (isNaN_of_isFinite finite)
    (significand_ne_zero nonzero)

theorem eq_of_roundsTo_shortest (finite : x.isFinite = true) (nonzero : x.isZero = false)
    (rounds : RoundsTo (withSign x.negative x.shortest.toRat) y) : y = x :=
  (shortest_encloses (significand_ne_zero nonzero)).unique (isNaN_of_isFinite finite)
    (significand_ne_zero nonzero) rounds

private theorem shortest_pos (nonzero : x.isZero = false) : 0 < x.shortest.toRat := by
  have encloses := shortest_encloses (significand_ne_zero nonzero)
  have below := unitBelow_le_magnitude (significand_ne_zero nonzero)
  have positive := x.unitBelow_pos
  have lower := encloses.lower
  linarith

private theorem value?_infinity (negative : Bool) :
    Numeral.value? (signed negative "Infinity".toList) = none := by
  cases negative <;> rfl

private theorem value?_zero : Numeral.value? ['0'] = some 0 := by
  decide

/-! ## Numbers from their texts -/

private theorem text_eq_notANumber_iff : x.text = "NaN".toList ↔ x.isNaN = true := by
  constructor
  · intro same
    rcases x.text_cases with ⟨nan, _⟩ | ⟨_, text⟩ | ⟨_, text⟩ | ⟨finite, nonzero, _⟩
    · exact nan
    · rw [text] at same
      cases sign : x.negative <;> simp [sign, signed] at same
    · simp [text] at same
    · have value := value?_text finite nonzero
      rw [same] at value
      contradiction
  · intro nan
    unfold text Layout.write
    rw [if_pos nan]
    rfl

private theorem text_eq_zero_iff : x.text = ['0'] ↔ x.isZero = true := by
  constructor
  · intro same
    rcases x.text_cases with ⟨_, text⟩ | ⟨_, text⟩ | ⟨zero, _⟩ | ⟨finite, nonzero, _⟩
    · simp [text] at same
    · rw [text] at same
      cases sign : x.negative <;> simp [sign, signed] at same
    · exact zero
    · have value := value?_text finite nonzero
      rw [same, value?_zero, Option.some.injEq] at value
      have positive := shortest_pos nonzero
      unfold withSign at value
      split at value <;> linarith
  · intro zero
    have finite := isFinite_of_isZero zero
    rcases x.text_cases with ⟨nan, _⟩ | ⟨infinite, _⟩ | ⟨_, text⟩ | ⟨_, nonzero, _⟩
    · simp [isNaN_of_isFinite finite] at nan
    · simp [isInfinite_of_isFinite finite] at infinite
    · exact text
    · simp [zero] at nonzero

private theorem isInfinite_of_text_eq {negative : Bool}
    (same : x.text = signed negative "Infinity".toList) : x.isInfinite = true ∧ x.negative = negative := by
  rcases x.text_cases with ⟨_, text⟩ | ⟨infinite, text⟩ | ⟨_, text⟩ | ⟨finite, nonzero, _⟩
  · cases negative <;> simp [text, signed] at same
  · refine ⟨infinite, ?_⟩
    rw [text] at same
    cases sign : x.negative <;> cases negative <;> simp [sign, signed] at same ⊢
  · cases negative <;> simp [text, signed] at same
  · have value := value?_text finite nonzero
    rw [same, value?_infinity] at value
    contradiction

/-- No other number has the text of a finite nonzero number. -/
theorem eq_of_text_eq (finite : x.isFinite = true) (nonzero : x.isZero = false)
    (same : y.text = x.text) : y = x := by
  have value := value?_text finite nonzero
  rcases y.text_cases with ⟨_, text⟩ | ⟨_, text⟩ | ⟨zero, text⟩ | ⟨finiteY, nonzeroY, _⟩
  · rw [← same, text] at value
    contradiction
  · rw [← same, text, value?_infinity] at value
    contradiction
  · rw [text_eq_zero_iff.mp (same ▸ text)] at nonzero
    contradiction
  · rw [← same, value?_text finiteY nonzeroY, Option.some.injEq] at value
    apply eq_of_roundsTo_shortest finite nonzero
    rw [← value]
    exact roundsTo_shortest finiteY nonzeroY

private theorem eq_of_isInfinite (infiniteX : x.isInfinite = true) (infiniteY : y.isInfinite = true)
    (signs : x.negative = y.negative) : x = y := by
  obtain ⟨_, _, _⟩ := x
  obtain ⟨_, _, _⟩ := y
  simp_all [isInfinite]

private theorem text_eq_iff (x y : Binary64) :
    x.text = y.text ↔ x.numericEq y = true ∨ (x.isNaN = true ∧ y.isNaN = true) := by
  constructor
  · intro same
    rcases x.text_cases with ⟨nan, text⟩ | ⟨infinite, text⟩ | ⟨zero, text⟩ | ⟨finite, nonzero, _⟩
    · exact .inr ⟨nan, text_eq_notANumber_iff.mp (same ▸ text)⟩
    · obtain ⟨infiniteY, sign⟩ := isInfinite_of_text_eq (same ▸ text)
      have number := isNaN_of_isInfinite infinite
      cases eq_of_isInfinite infinite infiniteY sign.symm
      exact .inl (numericEq_iff.mpr ⟨number, number, .inr rfl⟩)
    · have zeroY := text_eq_zero_iff.mp (same ▸ text)
      have numberX := isNaN_of_isFinite (isFinite_of_isZero zero)
      have numberY := isNaN_of_isFinite (isFinite_of_isZero zeroY)
      exact .inl (numericEq_iff.mpr ⟨numberX, numberY, .inl ⟨zero, zeroY⟩⟩)
    · have number := isNaN_of_isFinite finite
      cases eq_of_text_eq finite nonzero same.symm
      exact .inl (numericEq_iff.mpr ⟨number, number, .inr rfl⟩)
  · rintro (equal | ⟨nanX, nanY⟩)
    · obtain ⟨_, _, ⟨zeroX, zeroY⟩ | rfl⟩ := numericEq_iff.mp equal
      · rw [text_eq_zero_iff.mpr zeroX, text_eq_zero_iff.mpr zeroY]
      · rfl
    · rw [text_eq_notANumber_iff.mpr nanX, text_eq_notANumber_iff.mpr nanY]

end Binary

private theorem numberText_eq_iff (x y : Binary64) :
    numberText x = numberText y ↔ x.numericEq y = true ∨ (x.isNaN = true ∧ y.isNaN = true) := by
  rw [← Binary.text_eq_iff, numberText, numberText, String.ofList_inj]

theorem numericEq_iff_numberText {x y : Binary64} (number : x.isNaN = false) :
    x.numericEq y = true ↔ numberText x = numberText y := by
  rw [numberText_eq_iff, number]
  simp

/-- The text of a number denotes a rational that rounds to the number alone, and two numbers share a
text, or equal one text, just if they are equal or neither is a number. -/
theorem numberText_faithful :
    (∀ x : Binary64, x.isFinite = true → x.isZero = false →
      ∃ q, Numeral.value? (numberText x).toList = some q ∧ Binary.RoundsTo q x ∧
        ∀ y : Binary64, Binary.RoundsTo q y → y = x) ∧
    (∀ x y : Binary64, numberText x = numberText y ↔
      x.numericEq y = true ∨ (x.isNaN = true ∧ y.isNaN = true)) ∧
    ∀ (ι : Type) [DecidableEq ι] (s : String) (x y : Binary64),
      (Primitive.number x : Primitive ι).looseEq (.text s) = true →
      (Primitive.text s : Primitive ι).looseEq (.number y) = true →
      x.numericEq y = true ∨ (x.isNaN = true ∧ y.isNaN = true) := by
  refine ⟨?_, numberText_eq_iff, ?_⟩
  · intro x finite nonzero
    refine ⟨_, ?_, Binary.roundsTo_shortest finite nonzero,
      fun y => Binary.eq_of_roundsTo_shortest finite nonzero⟩
    rw [numberText, String.toList_ofList, Binary.value?_text finite nonzero]
  · intro ι _ s x y first second
    rw [← numberText_eq_iff]
    have textX : numberText x = s := eq_of_beq first
    have textY : numberText y = s := eq_of_beq second
    rw [textX, textY]

/-- A number that lies next to a power of ten, and is not one. -/
def nearPowerOfTen : Binary64 := .ofBits 0x44B52D02C7E14AF6

theorem nearPowerOfTen_text :
    nearPowerOfTen.isFinite = true ∧ nearPowerOfTen.isZero = false ∧
      numberText nearPowerOfTen = "1e+23" ∧ Binary.RoundsTo (10 ^ 23) nearPowerOfTen ∧
      (∀ y : Binary64, Binary.RoundsTo (10 ^ 23) y → y = nearPowerOfTen) ∧
      numberText (.zero true) = numberText (.zero false) := by
  have text : nearPowerOfTen.text = "1e+23".toList := by decide +kernel
  obtain ⟨rounds, same, _⟩ := numberText_faithful
  obtain ⟨q, value, rounded, only⟩ := rounds nearPowerOfTen (by decide) (by decide)
  have power : q = 10 ^ 23 := by
    rw [numberText, String.toList_ofList, text] at value
    have denoted : Numeral.value? "1e+23".toList = some (10 ^ 23) := by decide +kernel
    exact Option.some.inj (value.symm.trans denoted)
  subst power
  refine ⟨by decide, by decide, ?_, rounded, only, ?_⟩
  · rw [numberText, text]
    rfl
  · exact (same _ _).mpr (.inl (by decide))

end LooseValue
