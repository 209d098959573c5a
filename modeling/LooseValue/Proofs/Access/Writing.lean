import LooseValue.Proofs.Access.Reading

/-!
# Writes of elements

A write goes through the projection of its element to the active position. In closed form the
projection fails exactly where several sequences contribute and the element is neither undefined,
with a value type to take it, nor active at a position of the active sequence's own type. This is
decided before the index is looked at.
-/

set_option autoImplicit false

namespace LooseValue

/-- Whether a merged item belongs to a payload type whose members start at an offset. -/
def Item.LiesIn (payload : Ty) (offset : Nat) : Item → Prop
  | .plain _ => False
  | .value .undefined => payload.isValue = true
  | .value (.active alternative) =>
      offset ≤ alternative.position ∧ alternative.position < offset + payload.width

instance (payload : Ty) (offset : Nat) : (item : Item) → Decidable (item.LiesIn payload offset)
  | .plain _ => .isFalse id
  | .value .undefined => inferInstanceAs (Decidable (payload.isValue = true))
  | .value (.active alternative) =>
      inferInstanceAs
        (Decidable (offset ≤ alternative.position ∧ alternative.position < offset + payload.width))

variable {typing : StoreTyping}

private theorem Ty.exists_item_of_active {type : Ty} {alternative : Alternative}
    (typed : Value.HasKinds typing type.members (.active alternative)) :
    ∃ item : Item, item.HasType typing type ∧ item.toValue = .active alternative := by
  cases read : type.ofValue? (.active alternative) with
  | none => cases type <;> cases read
  | some item => exact ⟨item, (Ty.ofValue?_eq_some_iff typed).mp read⟩

private theorem Item.shift_eq_of_toValue {item : Item} {position : Nat} {payload : Payload}
    (same : item.toValue = .active ⟨position, payload⟩) (offset : Nat) :
    item.shift offset = .value (.active ⟨offset + position, payload⟩) := by
  cases item with
  | plain own =>
      cases same
      rfl
  | value own =>
      cases same
      rfl

private theorem Item.HasType.shift_liesIn {item : Item} {payload : Ty}
    (typed : item.HasType typing payload)
    (offset : Nat) : (item.shift offset).LiesIn payload offset := by
  have inside := typed.toValue
  cases typed with
  | plain _ => exact ⟨Nat.le_refl _, Nat.lt_succ_self _⟩
  | @value value payload isValue _ =>
      cases value with
      | undefined => exact isValue
      | active alternative =>
          exact ⟨Nat.le_add_right .., Nat.add_lt_add_left inside.position_lt offset⟩

namespace Shape

variable {contribution : Kind → Shape} {kinds : List Kind} {position : Nat} {kind : Kind}
  {payload : Ty}

/-- The members of a contribution stand from its offset on among those of the result. -/
theorem getElem?_members_of_offset {type : Ty} (resolved : resolve contribution kinds = some type)
    (found : kinds[position]? = some kind) (present : contribution kind = some payload)
    {place : Nat} (inside : place < payload.width) :
    type.members[offset contribution kinds position + place]? = payload.members[place]? := by
  rw [resolve_eq_ofPayloads] at resolved
  rw [members_of_ofPayloads resolved, payloads_divided found present, List.flatMap_append,
    List.flatMap_cons]
  have before : ((payloads contribution (kinds.take position)).flatMap Ty.members).length =
      offset contribution kinds position := by
    rw [List.length_flatMap, offset]
    rfl
  rw [List.getElem?_append_right (by omega), before, Nat.add_sub_cancel_left,
    List.getElem?_append_left inside]

private theorem exists_shift_of_liesIn {type : Ty} {merged : Item}
    (resolved : resolve contribution kinds = some type) (typed : merged.HasType typing type)
    (found : kinds[position]? = some kind) (present : contribution kind = some payload)
    (lies : merged.LiesIn payload (offset contribution kinds position)) :
    ∃ item : Item, item.HasType typing payload ∧
      item.shift (offset contribution kinds position) = merged := by
  cases typed with
  | plain _ => cases lies
  | value _ typed =>
      cases typed with
      | undefined => exact ⟨.value .undefined, .value lies .undefined, rfl⟩
      | @active place own member at_place typed =>
          obtain ⟨after, before⟩ := lies
          simp only at after before
          obtain ⟨rest, rfl⟩ := Nat.exists_eq_add_of_le after
          have inside : rest < payload.width := by omega
          rw [getElem?_members_of_offset resolved found present inside] at at_place
          obtain ⟨item, itemTyped, same⟩ :=
            Ty.exists_item_of_active (.active at_place typed)
          exact ⟨item, itemTyped, Item.shift_eq_of_toValue same _⟩

/-- The projection of a result in closed form: what it refuses. -/
theorem project_eq_none_iff {type : Ty} {merged : Item}
    (resolved : resolve contribution kinds = some type) (typed : merged.HasType typing type)
    (found : kinds[position]? = some kind) (present : contribution kind = some payload) :
    project contribution kinds position merged = none ↔
      2 ≤ (payloads contribution kinds).length ∧
        ¬ merged.LiesIn payload (offset contribution kinds position) := by
  have held : (resolve contribution kinds).Holds typing merged := by
    rw [resolved]
    exact .some typed
  have projects : ∀ item, project contribution kinds position merged = some item ↔
      item.HasType typing payload ∧ embed contribution kinds position item = merged := by
    intro item
    rw [project_eq_some_iff found held, present, holds_some]
  by_cases single : (payloads contribution kinds).length = 1
  · -- The only contribution is the whole result, so every item of the result is its own.
    have whole : type = payload := by
      rw [(resolve_splices contribution kinds).single payload
        (payloads_eq_of_single found present single)] at resolved
      exact (Option.some.inj resolved).symm
    have accepted : project contribution kinds position merged = some merged := by
      rw [projects, embed_eq found present, if_pos single]
      exact ⟨whole ▸ typed, rfl⟩
    simp [accepted, single]
  · have several : 2 ≤ (payloads contribution kinds).length := by
      have some := payloads_ne_nil_of_resolve resolved
      have positive := List.length_pos_iff.mpr some
      omega
    simp only [embed_eq found present, if_neg single] at projects
    simp only [several, true_and]
    constructor
    · intro refused lies
      obtain ⟨item, itemTyped, shifted⟩ := exists_shift_of_liesIn resolved typed found present lies
      rw [(projects item).mpr ⟨itemTyped, shifted⟩] at refused
      cases refused
    · intro foreign
      cases projected : project contribution kinds position merged with
      | none => rfl
      | some item =>
          obtain ⟨itemTyped, rfl⟩ := (projects item).mp projected
          exact absurd (itemTyped.shift_liesIn _) foreign

end Shape

namespace Store

variable {store : Store} {kinds : List Kind} {position index : Nat} {buffer : Address}
  {element : Item}

private theorem setElement_of_unsupported {value : Value} (typed : value.HasKinds typing kinds)
    (unsupported : (value.activeKind? kinds).bind Kind.elementShape = none) :
    store.setElement kinds index element value =
      (store.release element.handles, .refuse (.invalidAccess "index" value.kindName)) := by
  cases typed with
  | undefined => rfl
  | active found typed =>
      simp only [Value.activeKind?, found, Option.bind_some] at unsupported
      cases typed with
      | boolean | number | text | shared => rfl
      | sequence => cases unsupported

theorem setElement_of_refused
    (refused : Shape.project Kind.elementShape kinds position element = none) :
    store.setElement kinds index element (.active ⟨position, .sequence buffer⟩) =
      (store.release element.handles, .refuse (.elementMismatch index "sequence")) := by
  simp only [setElement, refused]
  rfl

theorem exchange_of_le {item : Item} (beyond : (store.items buffer).length ≤ index) :
    store.exchange buffer index item =
      (store.release item.handles,
        .refuse (.indexOutOfBounds index (store.items buffer).length)) := by
  rw [exchange, Sequence.set, Sequence.update_of_le beyond]
  rfl

theorem exchange_of_getElem? {item previous : Item}
    (stored : (store.items buffer)[index]? = some previous) :
    store.exchange buffer index item =
      (store.write buffer (.buffer ((store.items buffer).set index item)), .grant previous) := by
  rw [exchange, Sequence.set, Sequence.update_of_getElem? stored]
  rfl

theorem setElement_of_le {item : Item}
    (projected : Shape.project Kind.elementShape kinds position element = some item)
    (beyond : (store.items buffer).length ≤ index) :
    store.setElement kinds index element (.active ⟨position, .sequence buffer⟩) =
      (store.release item.handles,
        .refuse (.indexOutOfBounds index (store.items buffer).length)) := by
  simp only [setElement, projected, exchange_of_le beyond]
  rfl

theorem setElement_of_getElem? {item previous : Item}
    (projected : Shape.project Kind.elementShape kinds position element = some item)
    (stored : (store.items buffer)[index]? = some previous) :
    store.setElement kinds index element (.active ⟨position, .sequence buffer⟩) =
      ((store.write buffer (.buffer ((store.items buffer).set index item))).release previous.handles,
        .grant ()) := by
  simp only [setElement, projected, exchange_of_getElem? stored]
  rfl

/-- The checks of a write in their order: first the element, then the index. -/
theorem setElement_outcome_eq :
    (store.setElement kinds index element (.active ⟨position, .sequence buffer⟩)).2.outcome =
      if Shape.project Kind.elementShape kinds position element = none then
        .error (.elementMismatch index "sequence")
      else if index < (store.items buffer).length then .ok ()
      else .error (.indexOutOfBounds index (store.items buffer).length) := by
  cases projected : Shape.project Kind.elementShape kinds position element with
  | none =>
      rw [setElement_of_refused projected]
      rfl
  | some item =>
      by_cases inside : index < (store.items buffer).length
      · rw [setElement_of_getElem? projected (List.getElem?_eq_getElem inside), if_pos inside]
        rfl
      · rw [setElement_of_le projected (Nat.le_of_not_lt inside), if_neg inside]
        rfl

end Store

private theorem Value.HasKinds.exists_sequence {kinds : List Kind} {value : Value}
    (typed : value.HasKinds typing kinds)
    (supported : (value.activeKind? kinds).bind Kind.elementShape ≠ none) :
    ∃ position buffer payload, value = .active ⟨position, .sequence buffer⟩ ∧
      kinds[position]? = some (.sequence payload) := by
  cases typed with
  | undefined => exact absurd rfl supported
  | active found typed =>
      simp only [Value.activeKind?, found, Option.bind_some] at supported
      cases typed with
      | boolean | number | text | shared => exact absurd rfl supported
      | sequence => exact ⟨_, _, _, rfl, found⟩

/-- The outcome of a write of an element, in every case. A value without a sequence is refused
whatever the element and the index are, and an element of another sequence whatever the index is. -/
theorem setElement_outcome_iff {store : Store} {kinds : List Kind} {result : Ty} {value : Value}
    {element : Item} (resolved : Shape.element kinds = some result)
    (valueTyped : value.HasKinds typing kinds) (elementTyped : element.HasType typing result)
    (index : Nat) :
    ((store.setElement kinds index element value).2.outcome =
        .error (.invalidAccess "index" value.kindName) ↔
      (value.activeKind? kinds).bind Kind.elementShape = none) ∧
    ∀ position buffer payload, value = .active ⟨position, .sequence buffer⟩ →
      kinds[position]? = some (.sequence payload) →
      ((store.setElement kinds index element value).2.outcome =
          .error (.elementMismatch index "sequence") ↔
        2 ≤ (Shape.payloads Kind.elementShape kinds).length ∧
          ¬ element.LiesIn payload (Shape.offset Kind.elementShape kinds position)) ∧
      ((store.setElement kinds index element value).2.outcome =
          .error (.indexOutOfBounds index (store.items buffer).length) ↔
        ¬ (2 ≤ (Shape.payloads Kind.elementShape kinds).length ∧
          ¬ element.LiesIn payload (Shape.offset Kind.elementShape kinds position)) ∧
        (store.items buffer).length ≤ index) ∧
      ((store.setElement kinds index element value).2.outcome = .ok () ↔
        ¬ (2 ≤ (Shape.payloads Kind.elementShape kinds).length ∧
          ¬ element.LiesIn payload (Shape.offset Kind.elementShape kinds position)) ∧
        index < (store.items buffer).length) := by
  constructor
  · constructor
    · intro refused
      apply Classical.byContradiction
      intro supported
      obtain ⟨position, buffer, payload, rfl, found⟩ := valueTyped.exists_sequence supported
      rw [Store.setElement_outcome_eq] at refused
      split at refused
      · cases refused
      · split at refused <;> cases refused
    · intro unsupported
      rw [Store.setElement_of_unsupported valueTyped unsupported]
      rfl
  · intro position buffer payload active found
    rw [active, Store.setElement_outcome_eq,
      ← Shape.project_eq_none_iff resolved elementTyped found rfl]
    by_cases refused : Shape.project Kind.elementShape kinds position element = none
    · simp [refused]
    · by_cases inside : index < (store.items buffer).length
      · simp [refused, inside]
      · simp [refused, inside, Nat.le_of_not_lt inside]

/-- Two sequences that can both store numbers. -/
def rivalKinds : List Kind := [.sequence (.kind .number), .sequence (.value [.number, .text])]

def rivalTyping : StoreTyping := fun address =>
  if address = 3 then some (.sequence (.value [.number, .text])) else none

def rivalStore : Store := ⟨[⟨3, 1, .buffer [.value .undefined, .value (.active ⟨1, .text "x"⟩)]⟩]⟩

def rivalValue : Value := .active ⟨1, .sequence 3⟩

theorem rivalValue_typed : rivalValue.HasKinds rivalTyping rivalKinds := .active rfl (.sequence rfl)

/-- A number of the first sequence is refused by the second, even beyond its end. -/
theorem rivalValue_refuses_number :
    Shape.element rivalKinds = some (.value [.number, .number, .text]) ∧
    rivalValue.HasKinds rivalTyping rivalKinds ∧
    (rivalStore.setElement rivalKinds 9 (.value (.active ⟨0, .number (.zero false)⟩)) rivalValue).2.outcome =
      .error (.elementMismatch 9 "sequence") :=
  have outcomes := setElement_outcome_iff rfl rivalValue_typed (.value rfl (.active rfl .number)) 9
  ⟨rfl, rivalValue_typed, (outcomes.2 1 3 _ rfl rfl).1.mpr (by decide)⟩

end LooseValue
