import LooseValue.Proofs.Embedding

/-!
# Concatenation of lists of kinds

An alternative of a concatenation is an alternative of exactly one of its two sides, and splitting
finds the side and the alternative there. An alternative of the left list keeps its position, one of
the right list is moved past the left one, and no kind takes part in this; so the same kind may stand
on both sides. Concatenating three lists embeds each of them alike along both groupings.
-/

set_option autoImplicit false

namespace LooseValue

namespace Alternative

variable {typing : StoreTyping} {left right : List Kind} {joined own : Alternative}

/-! ## Two lists -/

private theorem split_appendLeft (typed : (Value.active own).HasKinds typing left) :
    own.appendLeft.split left = .inl own :=
  split_of_lt typed.position_lt

private theorem split_appendRight (left : List Kind) (own : Alternative) :
    (own.appendRight left).split left = .inr own := by
  rw [appendRight_eq, split_of_le (Nat.le_add_right ..)]
  simp only [Nat.add_sub_cancel_left]

/-- An alternative of a concatenation is embedded from one of the two lists. -/
theorem exists_embedded (typed : (Value.active joined).HasKinds typing (left ++ right)) :
    (∃ own, (Value.active own).HasKinds typing left ∧ own.appendLeft = joined) ∨
      ∃ own, (Value.active own).HasKinds typing right ∧ own.appendRight left = joined := by
  by_cases inside : joined.position < left.length
  · exact .inl ⟨joined, typed.left_of_append inside, rfl⟩
  · have beyond := Nat.le_of_not_lt inside
    refine .inr ⟨_, typed.right_of_append beyond, ?_⟩
    rw [appendRight_eq]
    simp only [Nat.add_sub_cancel' beyond]

private theorem split_eq_inl_iff (typed : (Value.active joined).HasKinds typing (left ++ right)) :
    joined.split left = .inl own ↔
      (Value.active own).HasKinds typing left ∧ own.appendLeft = joined := by
  constructor
  · intro found
    rcases exists_embedded typed with ⟨other, otherTyped, rfl⟩ | ⟨other, _, rfl⟩
    · rw [split_appendLeft otherTyped] at found
      cases found
      exact ⟨otherTyped, rfl⟩
    · rw [split_appendRight] at found
      cases found
  · rintro ⟨ownTyped, rfl⟩
    exact split_appendLeft ownTyped

private theorem split_eq_inr_iff (typed : (Value.active joined).HasKinds typing (left ++ right)) :
    joined.split left = .inr own ↔
      (Value.active own).HasKinds typing right ∧ own.appendRight left = joined := by
  constructor
  · intro found
    rcases exists_embedded typed with ⟨other, otherTyped, rfl⟩ | ⟨other, otherTyped, rfl⟩
    · rw [split_appendLeft otherTyped] at found
      cases found
    · rw [split_appendRight] at found
      cases found
      exact ⟨otherTyped, rfl⟩
  · rintro ⟨_, rfl⟩
    exact split_appendRight left own

/-! ## Three lists -/

private theorem appendRight_append (left middle : List Kind) (own : Alternative) :
    own.appendRight (left ++ middle) = (own.appendRight middle).appendRight left := by
  induction left with
  | nil => rfl
  | cons kind left ih => rw [List.cons_append, appendRight, ih, appendRight]

/-- Splitting a concatenation inverts the embeddings of its two sides, of which the left one keeps
positions and the right one moves them past the left list. Concatenation is associative, and an
alternative of one of three lists is embedded alike along both groupings. -/
theorem split_inverts_append (typing : StoreTyping) (a b c : List Kind) :
    (∀ joined, (Value.active joined).HasKinds typing (a ++ b) →
      (∀ own, joined.split a = .inl own ↔
        (Value.active own).HasKinds typing a ∧ own.appendLeft = joined) ∧
      (∀ own, joined.split a = .inr own ↔
        (Value.active own).HasKinds typing b ∧ own.appendRight a = joined)) ∧
    (∀ own, (Value.active own).HasKinds typing a →
      (Value.active own.appendLeft).HasKinds typing (a ++ b) ∧
      own.appendLeft.position = own.position ∧ own.appendLeft.payload = own.payload) ∧
    (∀ own, (Value.active own).HasKinds typing b →
      (Value.active (own.appendRight a)).HasKinds typing (a ++ b) ∧
      (own.appendRight a).position = a.length + own.position ∧
      (own.appendRight a).payload = own.payload) ∧
    (a ++ b) ++ c = a ++ (b ++ c) ∧
    (∀ own : Alternative, own.appendLeft.appendLeft = own.appendLeft) ∧
    (∀ own : Alternative, (own.appendRight a).appendLeft = own.appendLeft.appendRight a) ∧
    ∀ own : Alternative, own.appendRight (a ++ b) = (own.appendRight b).appendRight a := by
  refine ⟨?_, ?_, ?_, List.append_assoc a b c, fun _ => rfl, fun _ => rfl, appendRight_append a b⟩
  · intro joined typed
    exact ⟨fun _ => split_eq_inl_iff typed, fun _ => split_eq_inr_iff typed⟩
  · intro own typed
    exact ⟨typed.appendLeft b, rfl, rfl⟩
  · intro own typed
    refine ⟨typed.appendRight a, ?_, ?_⟩
    · rw [appendRight_eq]
    · rw [appendRight_eq]

/-- Of two equal kinds that meet where the lists do, the second belongs to the right list. -/
theorem secondText_splits :
    Value.HasKinds (fun _ => none) ([.number, .text] ++ [.text]) (.active ⟨2, .text "b"⟩) ∧
    split [.number, .text] ⟨2, .text "b"⟩ = .inr ⟨0, .text "b"⟩ ∧
    Value.HasKinds (fun _ => none) [.text] (.active ⟨0, .text "b"⟩) ∧
    appendRight [.number, .text] ⟨0, .text "b"⟩ = ⟨2, .text "b"⟩ := by
  have typed : Value.HasKinds (fun _ => none) ([.number, .text] ++ [.text])
      (.active ⟨2, .text "b"⟩) := .active rfl .text
  obtain ⟨inverts, _⟩ := split_inverts_append (fun _ => none) [.number, .text] [.text] []
  obtain ⟨own, embedded⟩ := ((inverts _ typed).2 ⟨0, .text "b"⟩).mp rfl
  exact ⟨typed, rfl, own, embedded⟩

end Alternative

end LooseValue
