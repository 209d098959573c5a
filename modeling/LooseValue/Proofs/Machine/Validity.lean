import LooseValue.Proofs.Machine.Soundness
import LooseValue.Proofs.Projection

/-!
# Validity

An item is valid for a shape if it is a result of that shape and its handles lead to live blocks.
In every state that a run reaches, named items are valid for their types, and whatever a valid item
leads to is valid for the type that it is reached at. Accesses, merges and concatenations take valid
items to valid items of the shape that is resolved for them.
-/

set_option autoImplicit false

namespace LooseValue

namespace Store

structure Valid (typing : StoreTyping) (store : Store) (shape : Shape) (item : Item) : Prop where
  typed : shape.Holds typing item
  live : ∀ handle ∈ item.handles, handle ∈ store.addresses

/-- What a valid item leads to is valid: the payload of a value for the kind at its position, and
the content of a block for the type in the kind of its handle. -/
structure ContentsValid (typing : StoreTyping) (store : Store) : Prop where
  payload : ∀ type position payload,
    store.Valid typing (some type) (.value (.active ⟨position, payload⟩)) →
    ∃ kind, type.members[position]? = some kind ∧
      store.Valid typing (some (.kind kind)) (.plain payload)
  cell : ∀ type cell, store.Valid typing (some (.kind (.shared type))) (.plain (.shared cell)) →
    ∃ content, store.block? cell = some (.cell content) ∧ store.Valid typing (some type) content
  buffer : ∀ type buffer,
    store.Valid typing (some (.kind (.sequence type))) (.plain (.sequence buffer)) →
    ∃ items, store.block? buffer = some (.buffer items) ∧
      ∀ item ∈ items, store.Valid typing (some type) item

/-- Results of valid items are valid for the shapes that are resolved for them. -/
structure ResultsValid (typing : StoreTyping) (store : Store) : Prop where
  referent : ∀ type kinds value item, type.kinds? = some kinds →
    store.Valid typing (some type) (.value value) →
    (store.referent kinds value).outcome = .ok item →
    store.Valid typing (Shape.referent kinds) item
  element : ∀ type kinds index value item, type.kinds? = some kinds →
    store.Valid typing (some type) (.value value) →
    (store.element kinds index value).outcome = .ok item →
    store.Valid typing (Shape.element kinds) item
  widenLeft : ∀ left right item, store.Valid typing left item →
    store.Valid typing (left.merge right) (Shape.widenLeft left right item)
  widenRight : ∀ left right item, store.Valid typing right item →
    store.Valid typing (left.merge right) (Shape.widenRight left right item)
  narrowLeft : ∀ left right merged item, store.Valid typing (left.merge right) merged →
    Shape.narrowLeft left right merged = some item → store.Valid typing left item
  narrowRight : ∀ left right merged item, store.Valid typing (left.merge right) merged →
    Shape.narrowRight left right merged = some item → store.Valid typing right item
  appendLeft : ∀ left right alternative,
    store.Valid typing (some (.value left)) (.value (.active alternative)) →
    store.Valid typing (some (.value (left ++ right))) (.value (.active alternative.appendLeft))
  appendRight : ∀ left right alternative,
    store.Valid typing (some (.value right)) (.value (.active alternative)) →
    store.Valid typing (some (.value (left ++ right)))
      (.value (.active (alternative.appendRight left)))
  splitLeft : ∀ left right alternative own,
    store.Valid typing (some (.value (left ++ right))) (.value (.active alternative)) →
    alternative.split left = .inl own →
    store.Valid typing (some (.value left)) (.value (.active own))
  splitRight : ∀ left right alternative own,
    store.Valid typing (some (.value (left ++ right))) (.value (.active alternative)) →
    alternative.split left = .inr own →
    store.Valid typing (some (.value right)) (.value (.active own))

variable {typing : StoreTyping} {store : Store} {roots : List Address} {item result : Item}
  {shape other : Shape} {type : Ty} {kinds left right : List Kind} {value : Value}
  {alternative own : Alternative}

namespace Valid

private theorem of_handles (valid : store.Valid typing shape item)
    (typed : other.Holds typing result)
    (same : result.handles = item.handles) : store.Valid typing other result where
  typed := typed
  live := by
    rw [same]
    exact valid.live

private theorem hasKinds (valid : store.Valid typing (some type) (.value value)) :
    value.HasKinds typing type.members :=
  (Shape.holds_some.mp valid.typed).toValue

theorem payload {position : Nat} {own : Payload}
    (valid : store.Valid typing (some type) (.value (.active ⟨position, own⟩))) :
    ∃ kind, type.members[position]? = some kind ∧
      store.Valid typing (some (.kind kind)) (.plain own) := by
  obtain ⟨kind, found, typed⟩ := valid.hasKinds.inv
  exact ⟨kind, found, valid.of_handles (.some (.plain typed)) rfl⟩

/-! ## Concatenations -/

private theorem of_active (valid : store.Valid typing shape (.value (.active alternative)))
    (typed : Value.HasKinds typing kinds (.active own)) (same : own.payload = alternative.payload) :
    store.Valid typing (some (.value kinds)) (.value (.active own)) := by
  refine valid.of_handles (.some (.value rfl typed)) ?_
  simp only [Item.handles, Value.handles, same]

theorem appendLeft (valid : store.Valid typing (some (.value left)) (.value (.active alternative)))
    (right : List Kind) :
    store.Valid typing (some (.value (left ++ right))) (.value (.active alternative.appendLeft)) :=
  valid.of_active (valid.hasKinds.appendLeft right) rfl

theorem appendRight (valid : store.Valid typing (some (.value right)) (.value (.active alternative)))
    (left : List Kind) :
    store.Valid typing (some (.value (left ++ right)))
      (.value (.active (alternative.appendRight left))) := by
  refine valid.of_active (valid.hasKinds.appendRight left) ?_
  rw [Alternative.appendRight_eq]

private theorem splitLeft
    (valid : store.Valid typing (some (.value (left ++ right))) (.value (.active alternative)))
    (divided : alternative.split left = .inl own) :
    store.Valid typing (some (.value left)) (.value (.active own)) := by
  by_cases inside : alternative.position < left.length
  · rw [Alternative.split_of_lt inside] at divided
    cases divided
    exact valid.of_active (valid.hasKinds.left_of_append inside) rfl
  · rw [Alternative.split_of_le (Nat.le_of_not_lt inside)] at divided
    cases divided

private theorem splitRight
    (valid : store.Valid typing (some (.value (left ++ right))) (.value (.active alternative)))
    (divided : alternative.split left = .inr own) :
    store.Valid typing (some (.value right)) (.value (.active own)) := by
  by_cases inside : alternative.position < left.length
  · rw [Alternative.split_of_lt inside] at divided
    cases divided
  · have beyond := Nat.le_of_not_lt inside
    rw [Alternative.split_of_le beyond] at divided
    cases divided
    exact valid.of_active (valid.hasKinds.right_of_append beyond) rfl

end Valid

/-! ## Sound stores -/

namespace Sound

private theorem valid_of_block? {address : Address} {block : Block}
    (sound : store.Sound typing roots)
    (found : store.block? address = some block) (inside : ∀ handle ∈ item.handles, handle ∈ block.handles)
    (typed : item.HasType typing type) : store.Valid typing (some type) item where
  typed := .some typed
  live := by
    intro handle member
    exact sound.mem_addresses_of_handles (mem_handles_of_block? found (inside handle member))

private theorem contentsValid (sound : store.Sound typing roots) : store.ContentsValid typing where
  payload := fun _ _ _ valid => valid.payload
  cell := by
    intro type cell valid
    have live := valid.live cell List.mem_cons_self
    cases Shape.holds_some.mp valid.typed with
    | plain typed =>
        cases typed with
        | shared known =>
            obtain ⟨found, contentTyped⟩ := sound.typed.cell live known
            exact ⟨_, found, sound.valid_of_block? found (fun _ inside => inside) contentTyped⟩
  buffer := by
    intro type buffer valid
    have live := valid.live buffer List.mem_cons_self
    cases Shape.holds_some.mp valid.typed with
    | plain typed =>
        cases typed with
        | sequence known =>
            obtain ⟨found, itemsTyped⟩ := sound.typed.buffer live known
            refine ⟨_, found, ?_⟩
            intro item member
            refine sound.valid_of_block? found ?_ (itemsTyped item member)
            intro handle inside
            exact List.mem_flatMap.mpr ⟨item, member, inside⟩

private theorem resultsValid (sound : store.Sound typing roots) : store.ResultsValid typing where
  referent := by
    intro type kinds value item listed valid granted
    obtain ⟨_, rfl⟩ := Ty.kinds?_eq_some_iff.mp listed
    refine ⟨sound.typed.referent_holds valid.hasKinds valid.live granted, ?_⟩
    intro handle inside
    exact sound.mem_addresses_of_handles (mem_handles_of_referent granted inside)
  element := by
    intro type kinds index value item listed valid granted
    obtain ⟨_, rfl⟩ := Ty.kinds?_eq_some_iff.mp listed
    refine ⟨sound.typed.element_holds valid.hasKinds valid.live granted, ?_⟩
    intro handle inside
    exact sound.mem_addresses_of_handles (mem_handles_of_element granted inside)
  widenLeft := by
    intro left right item valid
    exact valid.of_handles (Shape.holds_widenLeft valid.typed) (Shape.handles_widenLeft ..)
  widenRight := by
    intro left right item valid
    exact valid.of_handles (Shape.holds_widenRight valid.typed) (Shape.handles_widenRight ..)
  narrowLeft := by
    intro left right merged item valid narrowed
    obtain ⟨held, _⟩ := (Shape.narrowLeft_eq_some_iff valid.typed).mp narrowed
    exact valid.of_handles held (Shape.handles_narrowLeft narrowed)
  narrowRight := by
    intro left right merged item valid narrowed
    obtain ⟨held, _⟩ := (Shape.narrowRight_eq_some_iff valid.typed).mp narrowed
    exact valid.of_handles held (Shape.handles_narrowRight narrowed)
  appendLeft := fun _ right _ valid => valid.appendLeft right
  appendRight := fun left _ _ valid => valid.appendRight left
  splitLeft := fun _ _ _ _ valid => valid.splitLeft
  splitRight := fun _ _ _ _ valid => valid.splitRight

end Sound

end Store

namespace State

variable {state : State}

/-- One typing of handles for which all names, all contents and all results are valid. -/
structure WellFormed (typing : StoreTyping) (state : State) : Prop where
  named : ∀ name register, state.register? name = some register →
    state.store.Valid typing (some register.type) register.item
  contents : state.store.ContentsValid typing
  results : state.store.ResultsValid typing

/-- Type soundness of runs, whatever their operations are. -/
theorem reached_wellFormed (reachable : state.Reachable) :
    ∃ typing, state.WellFormed typing := by
  obtain ⟨typing, sound⟩ := reachable.sound
  refine ⟨typing, ?_, sound.store.contentsValid, sound.store.resultsValid⟩
  intro name register named
  exact ⟨.some (sound.typed_of_register? named), sound.live_of_register? named⟩

/-- A value whose second kind is active, a sequence with a text in it. -/
def rivalNamed : State where
  store := ⟨[⟨1, 1, .buffer [.value (.active ⟨1, .text "x"⟩)]⟩]⟩
  registers := [("v", ⟨.value rivalKinds, .value (.active ⟨1, .sequence 1⟩)⟩)]

private theorem rivalNamed_reachable : rivalNamed.Reachable :=
  Reachable.initial.create .ascending "v" (.value rivalKinds)
    (.active 1 (.sequence [.active 1 (.text "x")])) rfl rfl

/-- The element that is read has the third of the merged kinds. -/
theorem rivalNamed_element :
    rivalNamed.Reachable ∧
    ∃ typing, rivalNamed.WellFormed typing ∧
      rivalNamed.store.element rivalKinds 0 (.active ⟨1, .sequence 1⟩) =
        .grant (.value (.active ⟨2, .text "x"⟩)) ∧
      rivalNamed.store.Valid typing (some (.value [.number, .number, .text]))
        (.value (.active ⟨2, .text "x"⟩)) := by
  obtain ⟨typing, wellFormed⟩ := reached_wellFormed rivalNamed_reachable
  have named := wellFormed.named "v" _ rfl
  exact ⟨rivalNamed_reachable, typing, wellFormed, rfl,
    wellFormed.results.element (.value rivalKinds) rivalKinds 0 _ _ rfl named rfl⟩

end State

end LooseValue
