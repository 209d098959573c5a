import LooseValue.Proofs.Access.Writing
import LooseValue.Proofs.Store.Soundness

/-!
# Elements as a lens

Reading an element embeds a stored item into the result of the whole list, and writing projects an
element back to an item. The two are inverse, so that an element that was written is read again,
writing what was read changes nothing, and the last of two writes wins. A written item is seen
through every handle to the buffer: the write may drop the last handles of the item that it
overwrites, but the buffer itself is still held by the value that the write went through. The laws
hold in every well-typed and counted store, and runs reach no others.
-/

set_option autoImplicit false

namespace LooseValue

variable {typing : StoreTyping}

namespace Store

variable {store : Store} {kinds : List Kind} {position index : Nat} {buffer : Address}
  {value : Value} {element item previous : Item} {roots : List Address}

private theorem setElement_ok_inv
    (succeeded : (store.setElement kinds index element value).2.outcome = .ok ()) :
    ∃ position buffer item previous, value = .active ⟨position, .sequence buffer⟩ ∧
      Shape.project Kind.elementShape kinds position element = some item ∧
      (store.items buffer)[index]? = some previous := by
  cases value with
  | undefined => cases succeeded
  | active alternative =>
      obtain ⟨position, payload⟩ := alternative
      cases payload with
      | boolean | number | text | shared => cases succeeded
      | sequence buffer =>
          rw [setElement_outcome_eq] at succeeded
          split at succeeded
          · cases succeeded
          · next accepted =>
              split at succeeded
              · next inside =>
                  obtain ⟨item, projected⟩ := Option.ne_none_iff_exists'.mp accepted
                  exact ⟨position, buffer, item, _, rfl, projected, List.getElem?_eq_getElem inside⟩
              · cases succeeded

structure Wrote (before after : Store) (buffer : Address) (index : Nat) (item : Item) : Prop where
  written : after.block? buffer = some (.buffer ((before.items buffer).set index item))
  others : ∀ address block, address ≠ buffer → after.block? address = some block →
    before.block? address = some block

/-- A write through a handle that stays in the roots keeps the count and the buffer. -/
theorem Counted.setElement (counted : store.Counted (element.handles ++ roots))
    (held : buffer ∈ roots)
    (projected : Shape.project Kind.elementShape kinds position element = some item)
    (handles : item.handles = element.handles)
    (stored : (store.items buffer)[index]? = some previous) :
    (store.setElement kinds index element (.active ⟨position, .sequence buffer⟩)).1.Counted roots ∧
      store.Wrote (store.setElement kinds index element (.active ⟨position, .sequence buffer⟩)).1
        buffer index item := by
  rw [setElement_of_getElem? projected stored]
  have found := block?_of_getElem?_items stored
  have written : (store.write buffer (.buffer ((store.items buffer).set index item))).Counted
      (previous.handles ++ roots) := by
    refine counted.write found ?_
    rw [← handles]
    exact handles_perm_set stored item
  have kept := written.release
  refine ⟨kept, ?_, ?_⟩
  · obtain ⟨entry, alive⟩ := mem_addresses_iff.mp (kept.mem_addresses held)
    have survives : ((store.write buffer (.buffer ((store.items buffer).set index item))).release
        previous.handles).block? buffer = some entry.block := by
      rw [block?, alive, Option.map_some]
    have before := block?_of_block?_release written.distinct survives
    rw [block?_write_self found] at before
    rw [survives, before]
  · intro address block different survives
    have before := block?_of_block?_release written.distinct survives
    rwa [block?_write_of_ne different] at before

/-- What every handle to a buffer shows after an item has been written, through a value over any list
and without one. -/
structure ShowsWritten (before after : Store) (buffer : Address) (index : Nat) (item : Item) :
    Prop where
  length : (after.items buffer).length = (before.items buffer).length
  item_here : after.itemAt buffer index = .grant item
  item_elsewhere : ∀ other, other ≠ index →
    after.itemAt buffer other = before.itemAt buffer other
  element_here : ∀ kinds position,
    after.element kinds index (.active ⟨position, .sequence buffer⟩) =
      .grant (Shape.embed Kind.elementShape kinds position item)
  element_elsewhere : ∀ other, other ≠ index → ∀ kinds position,
    after.element kinds other (.active ⟨position, .sequence buffer⟩) =
      before.element kinds other (.active ⟨position, .sequence buffer⟩)

theorem Wrote.items {after : Store} (wrote : store.Wrote after buffer index item) :
    after.items buffer = (store.items buffer).set index item := by
  rw [items_eq, wrote.written]

private theorem Wrote.showsWritten {after : Store} (wrote : store.Wrote after buffer index item)
    (stored : (store.items buffer)[index]? = some previous) :
    store.ShowsWritten after buffer index item := by
  have inside := (List.getElem?_eq_some_iff.mp stored).1
  have here : after.itemAt buffer index = .grant item := by
    simp only [itemAt, Sequence.get, wrote.items, List.getElem?_set_self inside]
  have elsewhere : ∀ other, other ≠ index → after.itemAt buffer other = store.itemAt buffer other := by
    intro other different
    simp only [itemAt, Sequence.get, wrote.items, List.getElem?_set_ne different.symm,
      List.length_set]
  refine ⟨?_, here, elsewhere, ?_, ?_⟩
  · rw [wrote.items, List.length_set]
  · intro kinds position
    simp only [Store.element, here]
    rfl
  · intro other different kinds position
    simp only [Store.element, elsewhere other different]

theorem Wrote.overwrite {once twice : Store} {other : Item}
    (wrote : store.Wrote once buffer index item) (again : once.Wrote twice buffer index other) :
    store.Wrote twice buffer index other where
  written := by rw [again.written, wrote.items, List.set_set]
  others := by
    intro address block different alive
    exact wrote.others address block different (again.others address block different alive)

private theorem Wrote.block_unique {left right : Store} {address : Address} {block other : Block}
    (one : store.Wrote left buffer index item) (two : store.Wrote right buffer index item)
    (alive : left.block? address = some block) (otherAlive : right.block? address = some other) :
    block = other := by
  by_cases here : address = buffer
  · rw [here, one.written] at alive
    rw [here, two.written] at otherAlive
    exact Option.some.inj (alive.symm.trans otherAlive)
  · have before := one.others address block here alive
    have otherBefore := two.others address other here otherAlive
    exact Option.some.inj (before.symm.trans otherBefore)

/-- Projecting the embedding of a stored item gives the item back, where the store is well typed. -/
theorem WellTyped.project_embed (storeTyped : store.WellTyped typing)
    (valueTyped : Value.HasKinds typing kinds (.active ⟨position, .sequence buffer⟩))
    (stored : (store.items buffer)[index]? = some item) :
    Shape.project Kind.elementShape kinds position
      (Shape.embed Kind.elementShape kinds position item) = some item := by
  obtain ⟨kind, found, payloadTyped⟩ := valueTyped.inv
  cases payloadTyped with
  | @sequence _ payload known =>
      obtain ⟨kind, typed, blockTyped⟩ := storeTyped.of_block? (block?_of_getElem?_items stored)
      rw [known] at typed
      cases typed
      cases blockTyped with
      | buffer itemsTyped =>
          have itemTyped := itemsTyped item (List.mem_of_getElem? stored)
          have held : (Kind.elementShape (.sequence payload)).Holds typing item := .some itemTyped
          exact (Shape.project_eq_some_iff found (Shape.holds_embed found held)).mpr ⟨held, rfl⟩

private theorem Counted.wrote_of_setElement {result : Ty} {after : Store} {events : List Event}
    (counted : store.Counted (element.handles ++ roots))
    (held : ∀ handle ∈ value.handles, handle ∈ roots)
    (resolved : Shape.element kinds = some result) (valueTyped : value.HasKinds typing kinds)
    (elementTyped : element.HasType typing result)
    (put : store.setElement kinds index element value = (after, ⟨.ok (), events⟩)) :
    ∃ position buffer item previous, value = .active ⟨position, .sequence buffer⟩ ∧
      Shape.project Kind.elementShape kinds position element = some item ∧
      Shape.embed Kind.elementShape kinds position item = element ∧
      (store.items buffer)[index]? = some previous ∧
      after.Counted roots ∧ store.Wrote after buffer index item := by
  obtain ⟨position, buffer, item, previous, rfl, projected, stored⟩ :=
    setElement_ok_inv (congrArg (fun reached => reached.2.outcome) put)
  obtain ⟨kind, found, _⟩ := valueTyped.inv
  have merged : (Shape.element kinds).Holds typing element := by
    rw [resolved]
    exact .some elementTyped
  have embedded := ((Shape.project_eq_some_iff found merged).mp projected).2
  have handles : item.handles = element.handles := by
    rw [← embedded, Shape.handles_embed]
  obtain ⟨kept, wrote⟩ :=
    counted.setElement (held buffer List.mem_cons_self) projected handles stored
  rw [put] at kept wrote
  exact ⟨position, buffer, item, previous, rfl, projected, embedded, stored, kept, wrote⟩

/-- Beside the element, a write looks at the length of the buffer only. -/
theorem setElement_report_congr {other : Store}
    (length : (store.items buffer).length = (other.items buffer).length) :
    (store.setElement kinds index element (.active ⟨position, .sequence buffer⟩)).2 =
      (other.setElement kinds index element (.active ⟨position, .sequence buffer⟩)).2 := by
  cases projected : Shape.project Kind.elementShape kinds position element with
  | none => rw [setElement_of_refused projected, setElement_of_refused projected]
  | some item =>
      by_cases inside : index < (store.items buffer).length
      · have otherInside : index < (other.items buffer).length := length ▸ inside
        rw [setElement_of_getElem? projected (List.getElem?_eq_getElem inside),
          setElement_of_getElem? projected (List.getElem?_eq_getElem otherInside)]
      · have beyond := Nat.le_of_not_lt inside
        rw [setElement_of_le projected beyond, setElement_of_le projected (length ▸ beyond), length]

/-- Writing back an element that was read, as a copy, restores the store. -/
theorem Counted.setElement_element (counted : store.Counted roots)
    (storeTyped : store.WellTyped typing) (valueTyped : value.HasKinds typing kinds)
    (granted : (store.element kinds index value).outcome = .ok element) :
    (store.retain element.handles).setElement kinds index element value = (store, .grant ()) := by
  obtain ⟨position, buffer, item, rfl, stored, rfl⟩ := element_ok_inv granted
  have projected := storeTyped.project_embed valueTyped stored
  have items : (store.retain item.handles).items buffer = store.items buffer := by
    rw [items_eq, block?_retain, ← items_eq]
  have unchanged : (store.items buffer).set index item = store.items buffer := by
    obtain ⟨inside, same⟩ := List.getElem?_eq_some_iff.mp stored
    rw [← same, List.set_getElem_self]
  have found : (store.retain item.handles).block? buffer =
      some (.buffer ((store.items buffer).set index item)) := by
    rw [block?_retain, unchanged]
    exact block?_of_getElem?_items stored
  have distinct : (store.retain item.handles).addresses.Nodup := by
    rw [addresses_retain]
    exact counted.distinct
  have live : ∀ handle ∈ item.handles, handle ∈ store.addresses := by
    intro handle inside
    exact (counted.live handle).mpr (List.mem_append_right _ (mem_handles_of_item stored inside))
  rw [Shape.handles_embed, setElement_of_getElem? projected (items ▸ stored), items,
    write_eq_self distinct found, counted.release_retain live]

/-- An element that was written is read again, through the value that it was written through and
through every other handle to the buffer. -/
theorem Counted.element_setElement {result : Ty} {after : Store} {events : List Event}
    (counted : store.Counted (element.handles ++ roots))
    (held : ∀ handle ∈ value.handles, handle ∈ roots)
    (resolved : Shape.element kinds = some result) (valueTyped : value.HasKinds typing kinds)
    (elementTyped : element.HasType typing result)
    (put : store.setElement kinds index element value = (after, ⟨.ok (), events⟩)) :
    after.element kinds index value = .grant element ∧
      ∃ position buffer item, value = .active ⟨position, .sequence buffer⟩ ∧
        Shape.embed Kind.elementShape kinds position item = element ∧
        store.ShowsWritten after buffer index item := by
  obtain ⟨position, buffer, item, previous, rfl, _, embedded, stored, _, wrote⟩ :=
    counted.wrote_of_setElement held resolved valueTyped elementTyped put
  have shown := wrote.showsWritten stored
  refine ⟨?_, position, buffer, item, rfl, embedded, shown⟩
  rw [shown.element_here, embedded]

/-- The second of two writes has the outcome and the effect that it has alone. -/
theorem Counted.setElement_setElement {result : Ty} {first second : Item} {once : Store}
    {events : List Event} (counted : store.Counted (first.handles ++ (second.handles ++ roots)))
    (held : ∀ handle ∈ value.handles, handle ∈ roots)
    (resolved : Shape.element kinds = some result) (valueTyped : value.HasKinds typing kinds)
    (firstTyped : first.HasType typing result) (secondTyped : second.HasType typing result)
    (put : store.setElement kinds index first value = (once, ⟨.ok (), events⟩)) :
    (once.setElement kinds index second value).2 = (store.setElement kinds index second value).2 ∧
      ∀ twice alone twiceEvents aloneEvents,
        once.setElement kinds index second value = (twice, ⟨.ok (), twiceEvents⟩) →
        store.setElement kinds index second value = (alone, ⟨.ok (), aloneEvents⟩) →
        (∀ position buffer, value = .active ⟨position, .sequence buffer⟩ →
          twice.items buffer = alone.items buffer) ∧
        ∀ address block other, alone.block? address = some block →
          twice.block? address = some other → block = other := by
  obtain ⟨position, buffer, item, previous, rfl, _, _, stored, onceCounted, wrote⟩ :=
    counted.wrote_of_setElement (fun handle inside => List.mem_append_right _ (held handle inside))
      resolved valueTyped firstTyped put
  refine ⟨setElement_report_congr (wrote.showsWritten stored).length, ?_⟩
  intro twice alone twiceEvents aloneEvents putTwice putAlone
  have aloneCounted : store.Counted (second.handles ++ (first.handles ++ roots)) :=
    counted.perm (List.perm_append_comm_assoc ..)
  obtain ⟨_, _, _, _, same, projected, _, _, _, wroteTwice⟩ :=
    onceCounted.wrote_of_setElement held resolved valueTyped secondTyped putTwice
  obtain ⟨_, _, _, _, aloneSame, aloneProjected, _, _, _, wroteAlone⟩ :=
    aloneCounted.wrote_of_setElement
      (fun handle inside => List.mem_append_right _ (held handle inside)) resolved valueTyped
      secondTyped putAlone
  cases same
  cases aloneSame
  rw [projected] at aloneProjected
  cases aloneProjected
  have overwritten := wrote.overwrite wroteTwice
  constructor
  · intro _ _ active
    cases active
    rw [overwritten.items, wroteAlone.items]
  · intro address block other alive otherAlive
    exact wroteAlone.block_unique overwritten alive otherAlive

end Store

/-- Elements are a lawful lens on the buffers of a well-typed and counted store: an element that was
written is read again, and seen through all other handles to the buffer; writing back what was read
restores the store; and the second of two writes has the outcome and the effect that it has
alone. What a law writes is at hand and typed, and nothing else has to be. -/
theorem setElement_lawful {store : Store} {kinds : List Kind} {result : Ty} {value : Value}
    {roots : List Address} (resolved : Shape.element kinds = some result)
    (storeTyped : store.WellTyped typing) (valueTyped : value.HasKinds typing kinds) (index : Nat) :
    (∀ element, element.HasType typing result →
      store.Counted (element.handles ++ (value.handles ++ roots)) →
      ∀ once events, store.setElement kinds index element value = (once, ⟨.ok (), events⟩) →
      once.element kinds index value = .grant element ∧
      ∃ position buffer item, value = .active ⟨position, .sequence buffer⟩ ∧
        Shape.embed Kind.elementShape kinds position item = element ∧
        store.ShowsWritten once buffer index item) ∧
    (store.Counted roots →
      ∀ element, (store.element kinds index value).outcome = .ok element →
      (store.retain element.handles).setElement kinds index element value = (store, .grant ())) ∧
    (∀ first second, first.HasType typing result → second.HasType typing result →
      store.Counted (first.handles ++ (second.handles ++ (value.handles ++ roots))) →
      ∀ once events, store.setElement kinds index first value = (once, ⟨.ok (), events⟩) →
      (once.setElement kinds index second value).2 =
        (store.setElement kinds index second value).2 ∧
      ∀ twice alone twiceEvents aloneEvents,
        once.setElement kinds index second value = (twice, ⟨.ok (), twiceEvents⟩) →
        store.setElement kinds index second value = (alone, ⟨.ok (), aloneEvents⟩) →
        (∀ position buffer, value = .active ⟨position, .sequence buffer⟩ →
          twice.items buffer = alone.items buffer) ∧
        ∀ address block other, alone.block? address = some block →
          twice.block? address = some other → block = other) := by
  have held : ∀ handle ∈ value.handles, handle ∈ value.handles ++ roots := by
    intro handle inside
    exact List.mem_append_left _ inside
  refine ⟨?_, ?_, ?_⟩
  · intro element typed counted once events put
    exact counted.element_setElement held resolved valueTyped typed put
  · intro counted element granted
    exact counted.setElement_element storeTyped valueTyped granted
  · intro first second firstTyped secondTyped counted once events put
    exact counted.setElement_setElement held resolved valueTyped firstTyped secondTyped put

private theorem rivalStore_typed : rivalStore.WellTyped rivalTyping := by
  intro entry member
  cases List.mem_singleton.mp member
  refine ⟨_, rfl, .buffer ?_⟩
  intro item inside
  simp only [List.mem_cons, List.not_mem_nil, or_false] at inside
  rcases inside with rfl | rfl
  · exact .value rfl .undefined
  · exact .value rfl (.active rfl .text)

private theorem rivalStore_counted : rivalStore.Counted rivalValue.handles where
  distinct := by decide
  holders := by decide
  live := by
    intro address
    simp [rivalStore, rivalValue, Store.addresses, Store.handles, Block.handles, Item.handles,
      Value.handles, Payload.handles]

def rivalNumber : Item := .value (.active ⟨1, .number (.zero false)⟩)

/-- A number written to the second of two rival sequences is read at the position where it was
written, and writing back the text beside it restores the store. -/
theorem rivalValue_reads_written :
    rivalStore.WellTyped rivalTyping ∧ rivalStore.Counted rivalValue.handles ∧
    (∃ once, rivalStore.setElement rivalKinds 0 rivalNumber rivalValue = (once, .grant ()) ∧
      once.element rivalKinds 0 rivalValue = .grant rivalNumber) ∧
    (rivalStore.retain []).setElement rivalKinds 1 (.value (.active ⟨2, .text "x"⟩)) rivalValue =
      (rivalStore, .grant ()) := by
  have typed : rivalNumber.HasType rivalTyping (.value [.number, .number, .text]) :=
    .value rfl (.active rfl .number)
  have counted : rivalStore.Counted (rivalNumber.handles ++ (rivalValue.handles ++ [])) :=
    rivalStore_counted
  obtain ⟨once, put⟩ :
      ∃ once, rivalStore.setElement rivalKinds 0 rivalNumber rivalValue = (once, .grant ()) :=
    ⟨_, Store.setElement_of_getElem? rfl rfl⟩
  have written := (setElement_lawful rfl rivalStore_typed rivalValue_typed 0).1 rivalNumber typed
    counted once [] put
  have restored := (setElement_lawful rfl rivalStore_typed rivalValue_typed 1).2.1
    rivalStore_counted (.value (.active ⟨2, .text "x"⟩)) rfl
  exact ⟨rivalStore_typed, rivalStore_counted, ⟨once, put, written.1⟩, restored⟩

end LooseValue
