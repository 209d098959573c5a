import LooseValue.Proofs.Embedding

/-!
# Coherence of merges

Shapes form a monoid under merging, and a list of shapes may be merged in any grouping: a result of
one of three shapes lands at the same position of the triple merge along both groupings, and a
result of the triple merge comes back to each of them, or fails to, along both groupings alike.
Narrowing asks nothing of the merged result, which may be ill-typed; of a widened one only its shape
has to be present.
-/

set_option autoImplicit false

namespace LooseValue

namespace Shape

variable {left right : Ty} {position : Nat} {payload : Payload}

private theorem merge_assoc (a b c : Shape) : (a.merge b).merge c = a.merge (b.merge c) := by
  cases a with
  | none => rfl
  | some a =>
      cases b with
      | none => rfl
      | some b =>
          cases c with
          | none => rfl
          | some c => simp [merge, Ty.members]

/-! ## Widening -/

private theorem widenLeft_some (left right : Ty) (result : Item) :
    widenLeft (some left) (some right) result = result.shift 0 :=
  result.toValue_retag_appendLeft

private theorem widenRight_some (left right : Ty) (result : Item) :
    widenRight (some left) (some right) result = result.shift left.width :=
  result.toValue_retag_appendRight left.members

private theorem widenLeft_widenLeft (a : Ty) (b c : Shape) (result : Item) :
    widenLeft (merge (some a) b) c (widenLeft (some a) b result) =
      widenLeft (some a) (b.merge c) result := by
  cases b with
  | none => rfl
  | some b =>
      cases c with
      | none => rfl
      | some c => simp only [merge, widenLeft_some, Item.shift_shift]

private theorem widenLeft_widenRight (a : Shape) (b : Ty) (c : Shape) (result : Item) :
    widenLeft (a.merge (some b)) c (widenRight a (some b) result) =
      widenRight a (merge (some b) c) (widenLeft (some b) c result) := by
  cases a with
  | none => rfl
  | some a =>
      cases c with
      | none => rfl
      | some c =>
          simp only [merge, widenLeft_some, widenRight_some, Item.shift_shift, Nat.zero_add,
            Nat.add_zero]

private theorem widenRight_widenRight (a b : Shape) (c : Ty) (result : Item) :
    widenRight (a.merge b) (some c) result =
      widenRight a (b.merge (some c)) (widenRight b (some c) result) := by
  cases a with
  | none => rfl
  | some a =>
      cases b with
      | none => rfl
      | some b =>
          simp only [merge, widenRight_some, Item.shift_shift, Ty.width, Ty.members,
            List.length_append]

/-! ## Narrowing -/

private theorem width_append (left right : Ty) :
    (Ty.value (left.members ++ right.members)).width = left.width + right.width :=
  List.length_append

private theorem split_of_width_le (payload : Payload) (beyond : left.width ≤ position) :
    Alternative.split left.members ⟨position, payload⟩ = .inr ⟨position - left.width, payload⟩ :=
  Alternative.split_of_le beyond

private theorem narrowLeft_of_lt (inside : position < left.width) :
    narrowLeft (some left) (some right) (.value (.active ⟨position, payload⟩)) =
      left.ofValue? (.active ⟨position, payload⟩) := by
  rw [narrowLeft, Alternative.split_of_lt inside]

private theorem narrowLeft_of_le (beyond : left.width ≤ position) :
    narrowLeft (some left) (some right) (.value (.active ⟨position, payload⟩)) = none := by
  rw [narrowLeft, split_of_width_le payload beyond]

private theorem narrowRight_of_lt (inside : position < left.width) :
    narrowRight (some left) (some right) (.value (.active ⟨position, payload⟩)) = none := by
  rw [narrowRight, Alternative.split_of_lt inside]

private theorem narrowRight_of_le (beyond : left.width ≤ position) :
    narrowRight (some left) (some right) (.value (.active ⟨position, payload⟩)) =
      right.ofValue? (.active ⟨position - left.width, payload⟩) := by
  rw [narrowRight, split_of_width_le payload beyond]

private theorem ofValue?_value (kinds : List Kind) (value : Value) :
    (Ty.value kinds).ofValue? value = some (.value value) := rfl

/-- An alternative of a triple merge comes back to the same one of the three along both groupings. -/
theorem narrow_narrow_active (a b c : Ty) (position : Nat) (payload : Payload) :
    let merged : Item := .value (.active ⟨position, payload⟩)
    let grouped := narrowLeft (merge (some a) (some b)) (some c) merged
    let regrouped := narrowRight (some a) (merge (some b) (some c)) merged
    grouped.bind (narrowLeft (some a) (some b)) =
        narrowLeft (some a) (merge (some b) (some c)) merged ∧
      grouped.bind (narrowRight (some a) (some b)) = regrouped.bind (narrowLeft (some b) (some c)) ∧
      narrowRight (merge (some a) (some b)) (some c) merged =
        regrouped.bind (narrowRight (some b) (some c)) := by
  have joined := width_append a b
  simp only [merge]
  by_cases first : position < a.width
  · simp (disch := omega) only [narrowLeft_of_lt, narrowRight_of_lt, ofValue?_value,
      Option.bind_some, Option.bind_none, and_self]
  · by_cases second : position < a.width + b.width
    · simp (disch := omega) only [narrowLeft_of_lt, narrowLeft_of_le, narrowRight_of_lt,
        narrowRight_of_le, ofValue?_value, Option.bind_some, and_self]
    · simp (disch := omega) only [narrowLeft_of_le, narrowRight_of_le, ofValue?_value,
        Option.bind_some, Option.bind_none, true_and, joined, Nat.sub_sub]

/-- Narrowing in two steps does not depend on the grouping, whether it succeeds or not. -/
theorem narrow_narrow (a b c : Shape) (merged : Item) :
    (narrowLeft (a.merge b) c merged).bind (narrowLeft a b) = narrowLeft a (b.merge c) merged ∧
      (narrowLeft (a.merge b) c merged).bind (narrowRight a b) =
        (narrowRight a (b.merge c) merged).bind (narrowLeft b c) ∧
      narrowRight (a.merge b) c merged =
        (narrowRight a (b.merge c) merged).bind (narrowRight b c) := by
  match a, b, c with
  | none, b, c =>
      refine ⟨Option.bind_fun_none _, ?_, rfl⟩
      exact Option.bind_fun_some (narrowLeft b c merged)
  | some a, none, c =>
      refine ⟨Option.bind_fun_some _, ?_, (Option.bind_fun_some _).symm⟩
      exact (Option.bind_fun_none _).trans (Option.bind_fun_none _).symm
  | some a, some b, none =>
      refine ⟨rfl, ?_, (Option.bind_fun_none _).symm⟩
      exact (Option.bind_fun_some (narrowRight (some a) (some b) merged)).symm
  | some a, some b, some c =>
      rcases merged with payload | (_ | ⟨position, payload⟩)
      · exact ⟨rfl, rfl, rfl⟩
      · exact ⟨rfl, rfl, rfl⟩
      · exact narrow_narrow_active a b c position payload

/-- Shapes are a monoid under merging, with the absent shape as its unit, and the grouping of a triple
merge shows neither in the shape nor in where a result of one of the three lands, which is in the
merged shape, nor in what a merged result narrows to. -/
theorem merge_monoid_coherent (a b c : Shape) :
    merge none a = a ∧ merge a none = a ∧ (a.merge b).merge c = a.merge (b.merge c) ∧
    (∀ typing result, a.Holds typing result →
      widenLeft (a.merge b) c (widenLeft a b result) = widenLeft a (b.merge c) result ∧
        (a.merge (b.merge c)).Holds typing (widenLeft a (b.merge c) result)) ∧
    (∀ typing result, b.Holds typing result →
      widenLeft (a.merge b) c (widenRight a b result) =
          widenRight a (b.merge c) (widenLeft b c result) ∧
        (a.merge (b.merge c)).Holds typing (widenRight a (b.merge c) (widenLeft b c result))) ∧
    (∀ typing result, c.Holds typing result →
      widenRight (a.merge b) c result = widenRight a (b.merge c) (widenRight b c result) ∧
        (a.merge (b.merge c)).Holds typing (widenRight (a.merge b) c result)) ∧
    ∀ merged,
      (narrowLeft (a.merge b) c merged).bind (narrowLeft a b) = narrowLeft a (b.merge c) merged ∧
      (narrowLeft (a.merge b) c merged).bind (narrowRight a b) =
        (narrowRight a (b.merge c) merged).bind (narrowLeft b c) ∧
      narrowRight (a.merge b) c merged =
        (narrowRight a (b.merge c) merged).bind (narrowRight b c) := by
  refine ⟨none_merge a, merge_none a, merge_assoc a b c, ?_, ?_, ?_, narrow_narrow a b c⟩
  · intro typing result held
    refine ⟨?_, holds_widenLeft held⟩
    cases held
    exact widenLeft_widenLeft _ b c result
  · intro typing result held
    refine ⟨?_, holds_widenRight (holds_widenLeft held)⟩
    cases held
    exact widenLeft_widenRight a _ c result
  · intro typing result held
    refine ⟨?_, merge_assoc a b c ▸ holds_widenRight held⟩
    cases held
    exact widenRight_widenRight a b _ result

/-- A number behind a number and a list of two: it lands past the three positions before it in both
groupings, and an undefined result comes back to the list in the middle. -/
theorem number_lands_behind_list :
    Holds (fun _ => none) (some (.kind .number)) (.plain (.number (.zero false))) ∧
    widenRight (some (.kind .number)) (merge (some (.value [.text, .number])) (some (.kind .number)))
        (widenRight (some (.value [.text, .number])) (some (.kind .number))
          (.plain (.number (.zero false)))) =
      .value (.active ⟨3, .number (.zero false)⟩) ∧
    (narrowRight (some (.kind .number)) (merge (some (.value [.text, .number])) (some (.kind .number)))
        (.value .undefined)).bind
        (narrowLeft (some (.value [.text, .number])) (some (.kind .number))) =
      some (.value .undefined) := by
  have held : Holds (fun _ => none) (some (.kind .number)) (.plain (.number (.zero false))) :=
    .some (.plain .number)
  obtain ⟨_, _, _, _, _, behind, narrows⟩ := merge_monoid_coherent (some (.kind .number))
    (some (.value [.text, .number])) (some (.kind .number))
  exact ⟨held, (behind _ _ held).1.symm, (narrows (.value .undefined)).2.1.symm⟩

end Shape

end LooseValue
