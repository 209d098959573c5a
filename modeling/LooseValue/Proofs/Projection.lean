import LooseValue.Proofs.Embedding

/-!
# Sides of a merged result

Narrowing inverts widening on either side of a merge. How many sides a merged result narrows to
depends on its being undefined and on nothing else: an active alternative belongs to exactly one
side, while an undefined result belongs to every side that is a value type. So undefined narrows to
both sides of two value types and to neither side of two plain kinds.
-/

set_option autoImplicit false

namespace LooseValue

variable {typing : StoreTyping}

private theorem Ty.isSome_ofValue?_undefined (type : Ty) :
    (type.ofValue? .undefined).isSome = type.isValue := by
  cases type <;> rfl

private theorem Ty.isSome_ofValue?_active (type : Ty) (alternative : Alternative) :
    (type.ofValue? (.active alternative)).isSome = true := by
  cases type <;> rfl

namespace Shape

def IsOne (shape : Shape) : Prop := ∃ kind, shape = some (.kind kind)

/-- The shape yields a value, over a list or dynamic. -/
def IsMany (shape : Shape) : Prop := ∃ type : Ty, shape = some type ∧ type.isValue = true

@[simp] theorem isOne_some {type : Ty} : IsOne (some type) ↔ type.isValue = false := by
  cases type <;> simp [IsOne, Ty.isValue]

@[simp] theorem isMany_some {type : Ty} : IsMany (some type) ↔ type.isValue = true := by
  simp [IsMany]

@[simp] theorem not_isOne_none : ¬ IsOne none := by
  rintro ⟨kind, absent⟩
  cases absent

@[simp] theorem not_isMany_none : ¬ IsMany none := by
  rintro ⟨type, absent, _⟩
  cases absent

/-! ## Handles -/

private theorem handles_of_ofValue? {type : Ty} {value : Value} {item : Item}
    (read : type.ofValue? value = some item) : item.handles = value.handles := by
  cases type with
  | kind kind =>
      cases value with
      | undefined => cases read
      | active alternative =>
          cases read
          rfl
  | value kinds =>
      cases read
      rfl
  | dynamic =>
      cases read
      rfl

theorem handles_narrowLeft {left right : Shape} {merged result : Item}
    (narrowed : narrowLeft left right merged = some result) : result.handles = merged.handles := by
  unfold narrowLeft at narrowed
  split at narrowed
  · cases narrowed
  · cases narrowed
    rfl
  · cases narrowed
  · exact handles_of_ofValue? narrowed
  · next left right alternative =>
      by_cases inside : alternative.position < left.members.length
      · rw [Alternative.split_of_lt inside] at narrowed
        exact handles_of_ofValue? narrowed
      · rw [Alternative.split_of_le (Nat.le_of_not_lt inside)] at narrowed
        cases narrowed

theorem handles_narrowRight {left right : Shape} {merged result : Item}
    (narrowed : narrowRight left right merged = some result) : result.handles = merged.handles := by
  unfold narrowRight at narrowed
  split at narrowed
  · cases narrowed
    rfl
  · cases narrowed
  · cases narrowed
  · exact handles_of_ofValue? narrowed
  · next left right alternative =>
      by_cases inside : alternative.position < left.members.length
      · rw [Alternative.split_of_lt inside] at narrowed
        cases narrowed
      · rw [Alternative.split_of_le (Nat.le_of_not_lt inside)] at narrowed
        exact handles_of_ofValue? narrowed

theorem handles_project {contribution : Kind → Shape} {kinds : List Kind} {position : Nat}
    {merged result : Item} (projected : project contribution kinds position merged = some result) :
    result.handles = merged.handles := by
  induction kinds generalizing position merged with
  | nil => cases projected
  | cons kind kinds ih =>
      cases position with
      | zero => exact handles_narrowLeft projected
      | succ position =>
          obtain ⟨rest, narrowed, later⟩ := Option.bind_eq_some_iff.mp projected
          rw [ih later, handles_narrowRight narrowed]

/-! ## The sides of one result -/

private theorem isSome_narrow_undefined (left right : Ty) :
    (narrowLeft (some left) (some right) (.value .undefined)).isSome = left.isValue ∧
      (narrowRight (some left) (some right) (.value .undefined)).isSome = right.isValue :=
  ⟨left.isSome_ofValue?_undefined, right.isSome_ofValue?_undefined⟩

/-- An alternative of a concatenation lies on exactly one side of it. -/
theorem isSome_narrow_active (left right : Ty) (alternative : Alternative) :
    (narrowLeft (some left) (some right) (.value (.active alternative))).isSome =
      !(narrowRight (some left) (some right) (.value (.active alternative))).isSome := by
  by_cases inside : alternative.position < left.members.length
  · simp [narrowLeft, narrowRight, Alternative.split_of_lt inside, Ty.isSome_ofValue?_active]
  · have beyond := Nat.le_of_not_lt inside
    simp [narrowLeft, narrowRight, Alternative.split_of_le beyond, Ty.isSome_ofValue?_active]

/-- Which of its sides a merged result narrows to. -/
theorem isSome_narrow_cases {left right : Shape} {merged : Item}
    (held : (left.merge right).Holds typing merged) :
    (merged = .value .undefined ∧ ∃ leftType rightType : Ty,
      left = some leftType ∧ right = some rightType ∧
        (narrowLeft left right merged).isSome = leftType.isValue ∧
        (narrowRight left right merged).isSome = rightType.isValue) ∨
    ((merged = .value .undefined → left = none ∨ right = none) ∧
      (narrowLeft left right merged).isSome = !(narrowRight left right merged).isSome) := by
  cases left with
  | none =>
      refine .inr ⟨fun _ => .inl rfl, ?_⟩
      simp [narrowLeft, narrowRight]
  | some left =>
      cases right with
      | none =>
          refine .inr ⟨fun _ => .inr rfl, ?_⟩
          simp [narrowLeft, narrowRight]
      | some right =>
          obtain ⟨value, rfl, _⟩ := (holds_some.mp held).value_inv
          cases value with
          | undefined =>
              obtain ⟨onLeft, onRight⟩ := isSome_narrow_undefined left right
              exact .inl ⟨rfl, left, right, rfl, rfl, onLeft, onRight⟩
          | active alternative =>
              refine .inr ⟨?_, isSome_narrow_active left right alternative⟩
              intro impossible
              cases impossible

/-! ## Injectivity -/

private theorem widenLeft_injective {left right : Shape} {first second : Item}
    (firstHeld : left.Holds typing first) (secondHeld : left.Holds typing second)
    (same : widenLeft left right first = widenLeft left right second) : first = second := by
  have merged : (left.merge right).Holds typing (widenLeft left right first) :=
    holds_widenLeft firstHeld
  have one := (narrowLeft_eq_some_iff merged).mpr ⟨firstHeld, rfl⟩
  have other := (narrowLeft_eq_some_iff merged).mpr ⟨secondHeld, same.symm⟩
  exact Option.some.inj (one.symm.trans other)

private theorem widenRight_injective {left right : Shape} {first second : Item}
    (firstHeld : right.Holds typing first) (secondHeld : right.Holds typing second)
    (same : widenRight left right first = widenRight left right second) : first = second := by
  have merged : (left.merge right).Holds typing (widenRight left right first) :=
    holds_widenRight firstHeld
  have one := (narrowRight_eq_some_iff merged).mpr ⟨firstHeld, rfl⟩
  have other := (narrowRight_eq_some_iff merged).mpr ⟨secondHeld, same.symm⟩
  exact Option.some.inj (one.symm.trans other)

/-- Narrowing and widening at any merge are exact partial inverses, widening is injective, and a
merged result narrows to exactly one side unless it is undefined between two shapes of one sort. -/
theorem narrow_inverts_widen (typing : StoreTyping) (left right : Shape) :
    (∀ merged, (left.merge right).Holds typing merged →
      (∀ result, narrowLeft left right merged = some result ↔
        left.Holds typing result ∧ widenLeft left right result = merged) ∧
      (∀ result, narrowRight left right merged = some result ↔
        right.Holds typing result ∧ widenRight left right result = merged) ∧
      ((narrowLeft left right merged).isSome ∧ (narrowRight left right merged).isSome ↔
        left.IsMany ∧ right.IsMany ∧ merged = .value .undefined) ∧
      (narrowLeft left right merged = none ∧ narrowRight left right merged = none ↔
        left.IsOne ∧ right.IsOne ∧ merged = .value .undefined) ∧
      (¬ (left.IsMany ∧ right.IsMany ∧ merged = .value .undefined) →
        ¬ (left.IsOne ∧ right.IsOne ∧ merged = .value .undefined) →
        (narrowLeft left right merged).isSome = !(narrowRight left right merged).isSome)) ∧
    (∀ first second, left.Holds typing first → left.Holds typing second →
      widenLeft left right first = widenLeft left right second → first = second) ∧
    (∀ first second, right.Holds typing first → right.Holds typing second →
      widenRight left right first = widenRight left right second → first = second) := by
  refine ⟨?_, fun _ _ => widenLeft_injective, fun _ _ => widenRight_injective⟩
  intro merged held
  refine ⟨fun _ => narrowLeft_eq_some_iff held, fun _ => narrowRight_eq_some_iff held, ?_⟩
  simp only [← Option.not_isSome_iff_eq_none]
  rcases isSome_narrow_cases held with
    ⟨rfl, leftType, rightType, rfl, rfl, onLeft, onRight⟩ | ⟨defined, onOne⟩
  · -- Undefined narrows to the value types among the sides.
    simp only [onLeft, onRight, isMany_some, isOne_some, and_true]
    cases leftType.isValue <;> cases rightType.isValue <;> decide
  · have unlike : ¬ (left.IsMany ∧ right.IsMany ∧ merged = .value .undefined) := by
      rintro ⟨leftMany, rightMany, undefined⟩
      rcases defined undefined with rfl | rfl
      · exact not_isMany_none leftMany
      · exact not_isMany_none rightMany
    have unalike : ¬ (left.IsOne ∧ right.IsOne ∧ merged = .value .undefined) := by
      rintro ⟨leftOne, rightOne, undefined⟩
      rcases defined undefined with rfl | rfl
      · exact not_isOne_none leftOne
      · exact not_isOne_none rightOne
    simp [unlike, unalike, onOne]

/-- Between two plain kinds undefined belongs to neither side, and beside a list of alternatives to
the list alone. -/
theorem undefined_narrows_to_lists :
    (merge (some (.kind .number)) (some (.kind .number))).Holds (fun _ => none) (.value .undefined) ∧
    narrowLeft (some (.kind .number)) (some (.kind .number)) (.value .undefined) = none ∧
    narrowRight (some (.kind .number)) (some (.kind .number)) (.value .undefined) = none ∧
    narrowRight (some (.kind .number)) (some (.value [.text])) (.value .undefined) =
      some (.value .undefined) := by
  have between : (merge (some (.kind .number)) (some (.kind .number))).Holds (fun _ => none)
      (.value .undefined) := .some (.value rfl .undefined)
  have beside : (merge (some (.kind .number)) (some (.value [.text]))).Holds (fun _ => none)
      (.value .undefined) := .some (.value rfl .undefined)
  have neither := ((narrow_inverts_widen _ _ _).1 _ between).2.2.2.1.mpr ⟨⟨_, rfl⟩, ⟨_, rfl⟩, rfl⟩
  have list := (((narrow_inverts_widen _ _ _).1 _ beside).2.1 (.value .undefined)).mpr
    ⟨.some (.value rfl .undefined), rfl⟩
  exact ⟨between, neither.1, neither.2, list⟩

end Shape

end LooseValue
