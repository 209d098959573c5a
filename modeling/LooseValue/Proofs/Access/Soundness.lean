import LooseValue.Proofs.Access.Lens

/-!
# Soundness of accesses

What is read through a well-typed value has the type that its list resolves to, and a write of an
item of the right type keeps the store sound, whether it succeeds or is refused.
-/

set_option autoImplicit false

namespace LooseValue

namespace Store

variable {typing : StoreTyping} {store : Store} {roots : List Address} {kinds : List Kind}
  {value : Value} {item : Item} {result payload : Ty} {buffer : Address} {index : Nat}

theorem WellTyped.referent_holds (typed : store.WellTyped typing)
    (valueTyped : value.HasKinds typing kinds)
    (live : ∀ handle ∈ value.handles, handle ∈ store.addresses)
    (granted : (store.referent kinds value).outcome = .ok item) :
    (Shape.referent kinds).Holds typing item := by
  obtain ⟨position, cell, rfl, rfl⟩ := referent_ok_inv granted
  obtain ⟨kind, found, payloadTyped⟩ := valueTyped.inv
  cases payloadTyped with
  | shared known =>
      have contentTyped := (typed.cell (live cell List.mem_cons_self) known).2
      exact Shape.holds_embed found (.some contentTyped)

theorem WellTyped.element_holds (typed : store.WellTyped typing)
    (valueTyped : value.HasKinds typing kinds)
    (live : ∀ handle ∈ value.handles, handle ∈ store.addresses)
    (granted : (store.element kinds index value).outcome = .ok item) :
    (Shape.element kinds).Holds typing item := by
  obtain ⟨position, buffer, stored, rfl, found, rfl⟩ := element_ok_inv granted
  obtain ⟨kind, listed, payloadTyped⟩ := valueTyped.inv
  cases payloadTyped with
  | sequence known =>
      have itemTyped := (typed.buffer (live buffer List.mem_cons_self) known).2 stored
        (List.mem_of_getElem? found)
      exact Shape.holds_embed listed (.some itemTyped)

namespace Sound

theorem referent_typed (sound : store.Sound typing roots) (valueTyped : value.HasKinds typing kinds)
    (live : ∀ handle ∈ value.handles, handle ∈ store.addresses)
    (resolved : Shape.referent kinds = some result)
    (granted : (store.referent kinds value).outcome = .ok item) : item.HasType typing result := by
  have held := sound.typed.referent_holds valueTyped live granted
  rw [resolved] at held
  exact Shape.holds_some.mp held

theorem element_typed (sound : store.Sound typing roots) (valueTyped : value.HasKinds typing kinds)
    (live : ∀ handle ∈ value.handles, handle ∈ store.addresses)
    (resolved : Shape.element kinds = some result)
    (granted : (store.element kinds index value).outcome = .ok item) : item.HasType typing result := by
  have held := sound.typed.element_holds valueTyped live granted
  rw [resolved] at held
  exact Shape.holds_some.mp held

theorem typed_of_mem_set {items : List Item} (itemsTyped : ∀ item ∈ items, item.HasType typing payload)
    (itemTyped : item.HasType typing payload) :
    ∀ other ∈ items.set index item, other.HasType typing payload := by
  intro other member
  rcases List.mem_or_eq_of_mem_set member with old | rfl
  · exact itemsTyped other old
  · exact itemTyped

/-- An item of a buffer is in hand after another one was written in its place. -/
theorem writeItem {previous : Item} (sound : store.Sound typing (item.handles ++ roots))
    (known : typing buffer = some (.sequence payload)) (held : buffer ∈ roots)
    (itemTyped : item.HasType typing payload) (stored : (store.items buffer)[index]? = some previous) :
    (store.write buffer (.buffer ((store.items buffer).set index item))).Sound typing
        (previous.handles ++ roots) ∧ previous.HasType typing payload := by
  have live := sound.counted.mem_addresses (List.mem_append_right item.handles held)
  obtain ⟨found, itemsTyped⟩ := sound.typed.buffer live known
  refine ⟨?_, itemsTyped previous (List.mem_of_getElem? stored)⟩
  exact sound.write found known (.buffer (typed_of_mem_set itemsTyped itemTyped))
    (handles_perm_set stored item)

theorem setElement {element : Item} (sound : store.Sound typing (element.handles ++ roots))
    (valueTyped : value.HasKinds typing kinds) (held : ∀ handle ∈ value.handles, handle ∈ roots)
    (resolved : Shape.element kinds = some result) (elementTyped : element.HasType typing result) :
    (store.setElement kinds index element value).1.Sound typing roots := by
  cases value with
  | undefined => exact sound.release
  | active alternative =>
      obtain ⟨position, own⟩ := alternative
      obtain ⟨kind, found, ownTyped⟩ := valueTyped.inv
      cases ownTyped with
      | boolean | number | text | shared => exact sound.release
      | @sequence buffer payload known =>
          cases projected : Shape.project Kind.elementShape kinds position element with
          | none =>
              rw [setElement_of_refused projected]
              exact sound.release
          | some item =>
              have merged : (Shape.element kinds).Holds typing element := by
                rw [resolved]
                exact .some elementTyped
              obtain ⟨itemHeld, embedded⟩ := (Shape.project_eq_some_iff found merged).mp projected
              rw [← embedded, Shape.handles_embed] at sound
              cases stored : (store.items buffer)[index]? with
              | none =>
                  rw [setElement_of_le projected (List.getElem?_eq_none_iff.mp stored)]
                  exact sound.release
              | some previous =>
                  rw [setElement_of_getElem? projected stored]
                  have written := sound.writeItem known (held buffer List.mem_cons_self)
                    (Shape.holds_some.mp itemHeld) stored
                  exact written.1.release

end Sound

end Store

end LooseValue
