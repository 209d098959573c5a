import LooseValue.Proofs.Machine.Soundness
import LooseValue.Proofs.Store.Texts

/-!
# Comparing with scalars

Loose equality with a boolean is the question whether the value counts as it, and loose equality with a
text the question whether it renders as it; but each is asked only of the payloads that have a rule for
such a mixture. To compare with a scalar is to compare with any value that holds it, whatever the list
and the position.
-/

set_option autoImplicit false

namespace LooseValue

/-- The payload of a value that holds a scalar. -/
def Payload.ofScalar : Scalar → Payload
  | .boolean b => .boolean b
  | .number x => .number x
  | .text s => .text s
  | .object identity => identity.elim

private theorem Payload.primitive_ofScalar (scalar : Scalar) :
    (Payload.ofScalar scalar).primitive = .ofScalar scalar := by
  cases scalar with
  | boolean | number | text => rfl
  | object identity => exact identity.elim

namespace Value

private theorem equalsPrimitive_active (alternative : Alternative) (primitive : Primitive Address) :
    (Value.active alternative).equalsPrimitive primitive =
      alternative.payload.primitive.looseEq primitive := rfl

private theorem not_equalsPrimitive_undefined (primitive : Primitive Address) :
    ¬ Value.undefined.equalsPrimitive primitive = true := Bool.false_ne_true

private theorem equalsBoolean_iff (value : Value) (b : Bool) :
    value.equalsPrimitive (.ofScalar (.boolean b)) = true ↔
      ((∃ c, value.payload? = some (.boolean c)) ∨ ∃ x, value.payload? = some (.number x)) ∧
        value.truthy = b := by
  rw [show Primitive.ofScalar (.boolean b) = .boolean b from rfl]
  cases value with
  | undefined => simp [not_equalsPrimitive_undefined, payload?]
  | active alternative =>
      obtain ⟨position, payload⟩ := alternative
      rw [equalsPrimitive_active]
      cases payload with
      | boolean c => simp [payload?, Payload.primitive, Primitive.looseEq, truthy, Payload.truthy]
      | number x =>
          simp [payload?, Payload.primitive, Primitive.looseEq, truthy, Payload.truthy,
            eq_comm (a := b)]
      | text | shared | sequence => simp [payload?, Payload.primitive, Primitive.looseEq]

private theorem rendered?_number (store : Store) (position : Nat) (x : Binary64) :
    store.rendered? (.value (.active ⟨position, .number x⟩)) = some (numberText x) := by
  simp [Store.rendered?_eq, Store.tree?, Item.tree?, Store.payloadTree?, Tree.render, numberText]

private theorem rendered?_text (store : Store) (position : Nat) (s : String) :
    store.rendered? (.value (.active ⟨position, .text s⟩)) = some s := by
  simp [Store.rendered?_eq, Store.tree?, Item.tree?, Store.payloadTree?, Tree.render]

private theorem equalsText_iff (store : Store) (value : Value) (s : String) :
    value.equalsPrimitive (.ofScalar (.text s)) = true ↔
      ((∃ x, value.payload? = some (.number x)) ∨ ∃ t, value.payload? = some (.text t)) ∧
        store.rendered? (.value value) = some s := by
  rw [show Primitive.ofScalar (.text s) = .text s from rfl]
  cases value with
  | undefined => simp [not_equalsPrimitive_undefined, payload?]
  | active alternative =>
      obtain ⟨position, payload⟩ := alternative
      rw [equalsPrimitive_active]
      cases payload with
      | number x => simp [rendered?_number, payload?, Payload.primitive, Primitive.looseEq]
      | text t => simp [rendered?_text, payload?, Payload.primitive, Primitive.looseEq]
      | boolean | shared | sequence => simp [payload?, Payload.primitive, Primitive.looseEq]

private theorem equalsPrimitive_eq_looseEq (value held : Value) {scalar : Scalar}
    (holds : held.payload? = some (.ofScalar scalar)) :
    value.equalsPrimitive (.ofScalar scalar) = value.looseEq held := by
  have primitive : held.primitive? = some (.ofScalar scalar) := by
    rw [primitive?, holds, Option.map_some, Payload.primitive_ofScalar]
  unfold equalsPrimitive looseEq
  rw [primitive]
  cases value.primitive? <;> rfl

end Value

private theorem State.step_compareScalar {state : State} {name : String}
    {named : Ty × List Kind × Value}
    (allocator : Allocator) (isNamed : state.value? name = some named) (scalar : Scalar) :
    (state.step allocator (.value name (.compare scalar))).2 =
      .answer (.comparison (named.2.2.equalsPrimitive (.ofScalar scalar))
        (named.2.2.equalsPrimitive (.ofScalar scalar))) := by
  simp [step, step?, isNamed, valueStep?]

/-- A value equals a boolean just if it holds a boolean or a number and counts as it, and equals a text
just if it holds a number or a text and renders as it. Whoever is asked, and in whatever order, a value
and a scalar get the verdict of the value and any value that holds the scalar. -/
theorem scalar_comparisons_agree :
    (∀ (value : Value) (b : Bool), value.equalsPrimitive (.ofScalar (.boolean b)) = true ↔
      ((∃ c, value.payload? = some (.boolean c)) ∨ ∃ x, value.payload? = some (.number x)) ∧
        value.truthy = b) ∧
    (∀ (store : Store) (value : Value) (s : String),
      value.equalsPrimitive (.ofScalar (.text s)) = true ↔
        ((∃ x, value.payload? = some (.number x)) ∨ ∃ t, value.payload? = some (.text t)) ∧
          store.rendered? (.value value) = some s) ∧
    ∀ (allocator : Allocator) (state : State) (name other : String) (type otherType : Ty)
      (kinds otherKinds : List Kind) (value held : Value) (scalar : Scalar),
      state.value? name = some (type, kinds, value) →
      state.value? other = some (otherType, otherKinds, held) →
      held.payload? = some (.ofScalar scalar) →
      ∃ equal : Bool, equal = value.equalsPrimitive (.ofScalar scalar) ∧
        ∀ op ∈ [.value name (.compare scalar), .compare name other, .compare other name],
          (state.step allocator op).2 = .answer (.comparison equal equal) := by
  refine ⟨Value.equalsBoolean_iff, Value.equalsText_iff, ?_⟩
  intro allocator state name other type otherType kinds otherKinds value held scalar named otherNamed
    holds
  have forward := value.equalsPrimitive_eq_looseEq held holds
  have backward := forward.trans (value.looseEq_comm held)
  refine ⟨_, rfl, ?_⟩
  intro op member
  simp only [List.mem_cons, List.not_mem_nil, or_false] at member
  rcases member with rfl | rfl | rfl
  · exact State.step_compareScalar allocator named scalar
  · rw [State.step_compare allocator named otherNamed]
    simp only [← forward, ← backward]
  · rw [State.step_compare allocator otherNamed named]
    simp only [← forward, ← backward]

/-- Not-a-number beside a text that reads like it, which is the last of three kinds. -/
def unnumberedNamed : State where
  store := .empty
  registers :=
    [("n", ⟨.value [.number], .value (.active ⟨0, .number (.ofBits 0x7FF8000000000000)⟩)⟩),
      ("t", ⟨.value [.text, .boolean, .text], .value (.active ⟨2, .text "NaN"⟩)⟩)]

theorem unnumberedNamed_compared :
    (∃ c x, unnumberedNamed.value? "n" = some (.value [.number], [.number], c) ∧
      c.payload? = some (.number x) ∧ c.truthy = true ∧
      c.equalsPrimitive (.ofScalar (.boolean true)) = true ∧
      Store.empty.rendered? (.value c) = some "NaN") ∧
    (unnumberedNamed.step .ascending (.compare "t" "n")).2 = .answer (.comparison true true) ∧
    (unnumberedNamed.step .ascending (.value "n" (.compare (.text "NaN")))).2 =
      .answer (.comparison true true) := by
  obtain ⟨booleans, texts, agree⟩ := scalar_comparisons_agree
  let unnumbered : Value := .active ⟨0, .number (.ofBits 0x7FF8000000000000)⟩
  have equal : unnumbered.equalsPrimitive (.ofScalar (.text "NaN")) = true := by decide +kernel
  have counts : unnumbered.truthy = true := by decide
  have renders := ((texts .empty unnumbered "NaN").mp equal).2
  obtain ⟨verdict, same, answers⟩ := agree .ascending unnumberedNamed "n" "t" _ _ _ _ unnumbered
    (.active ⟨2, .text "NaN"⟩) (.text "NaN") rfl rfl rfl
  rw [equal] at same
  subst same
  refine ⟨⟨unnumbered, _, rfl, rfl, counts, ?_, renders⟩, ?_, ?_⟩
  · exact (booleans unnumbered true).mpr ⟨.inr ⟨_, rfl⟩, counts⟩
  · exact answers _ (by simp)
  · exact answers _ (by simp)

end LooseValue
