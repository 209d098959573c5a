import LooseValue.Proofs.Machine.Refusals

/-!
# Effects of steps on the store

What a step can do to the store, whatever the operation. An operation that writes overwrites one
block, or it is refused and changes nothing. Every other step copies handles and makes new blocks
first and drops handles in the end, so that no block which stays is changed by it.
-/

set_option autoImplicit false

namespace LooseValue

namespace Store

variable {before grown after store : Store} {address : Address}

/-- The second store differs from the first by handles: copies and new blocks were made, and then
handles were dropped. -/
def Rehandled (before after : Store) : Prop :=
  ∃ grown dropped, before.Grown grown ∧ after = grown.release dropped

theorem Grown.rehandled (growth : before.Grown grown) (dropped : List Address) :
    before.Rehandled (grown.release dropped) :=
  ⟨grown, dropped, growth, rfl⟩

theorem Rehandled.refl (store : Store) : store.Rehandled store :=
  ⟨store, [], .refl, by rw [release]⟩

theorem Grown.nodup (growth : before.Grown after) (distinct : before.addresses.Nodup) :
    after.addresses.Nodup := by
  induction growth with
  | refl => exact distinct
  | retain copied _ ih =>
      rw [addresses_retain]
      exact ih
  | @allocate after block allocator _ _ ih =>
      exact List.nodup_cons.mpr ⟨allocator.fresh after.addresses, ih⟩

theorem Grown.keeps (growth : before.Grown after) : before.Keeps after := by
  induction growth with
  | refl => exact .refl _
  | retain copied _ ih => exact ih.trans (keeps_retain _ copied)
  | allocate allocator _ _ ih => exact ih.trans (keeps_allocate _ allocator _)

theorem Rehandled.frame (rehandled : before.Rehandled after) (distinct : before.addresses.Nodup) :
    before.Frame (fun _ => False) after := by
  obtain ⟨grown, dropped, growth, rfl⟩ := rehandled
  exact growth.keeps.frame_release (growth.nodup distinct) dropped

end Store

namespace State

variable {typing : StoreTyping} {state next : State} {allocator : Allocator} {op : Op}
  {type : Ty} {item : Item} {literal : Literal} {store : Store} {report : Report}

/-! ## Steps that write nothing -/

private theorem rehandled_deliver (built : State) (growth : state.store.Grown built.store)
    (target : Option String) (register : Register) :
    state.store.Rehandled (built.deliver target register).store := by
  obtain ⟨dropped, released⟩ := built.exists_store_deliver target register
  rw [released]
  exact growth.rehandled dropped

namespace Sound

/-- Names lead to live blocks, so that what a literal copies is there. -/
theorem grown_build (sound : state.Sound typing [])
    (built : literal.build allocator state.registers type state.store = some (item, store)) :
    state.store.Grown store := by
  refine (literal.grownTo_build ?_ built).grown
  intro named member handle inside
  exact sound.counted.mem_addresses (List.mem_flatMap.mpr ⟨named, member, inside⟩)

private theorem grown_buildPayload {kind : Kind} {payload : Payload} (sound : state.Sound typing [])
    (built : literal.buildPayload allocator state.registers kind state.store = some (payload, store)) :
    state.store.Grown store := by
  unfold Literal.buildPayload at built
  split at built
  · next own last first =>
      cases built
      exact sound.grown_build first
  · cases built

private theorem grown_carries {target : Option String} {middle : State} {register : Register}
    (sound : state.Sound typing [])
    (carries : state.Carries allocator op target middle register) (isRead : op.isWrite = false) :
    state.store.Grown middle.store := by
  cases carries with
  | create built => exact sound.grown_build built
  | take => exact .refl
  | clone | rewrap | payload | referent | element | content | item => exact .retain _ .refl
  | pop => cases isRead
  | exchangeContent _ _ exchanges | exchangeItem _ _ _ exchanges =>
      simp only [List.mem_cons, List.not_mem_nil, or_false] at exchanges
      rcases exchanges with rfl | rfl <;> cases isRead

/-! ## All steps -/

private theorem outcome_writes_or_rehandled (sound : state.Sound typing [])
    (outcome : state.Outcome allocator op next report) :
    (∃ address block target, state.Writes allocator op address block target) ∨
      state.store.Rehandled next.store := by
  cases outcome with
  | unfit | answered | profiled | exhausted | readRefused => exact .inr (.refl _)
  | @delivered _ target middle register _ carries full =>
      cases isWrite : op.isWrite with
      | true =>
          obtain ⟨address, block, writes⟩ := sound.carries_writes carries isWrite
          exact .inl ⟨address, block, target, writes⟩
      | false =>
          exact .inr (rehandled_deliver middle (sound.grown_carries carries isWrite) target register)
  | dropped | cleared => exact .inr (Store.Grown.refl.rehandled _)
  | replaced _ _ built | overwriteMissed _ _ built =>
      exact .inr ((sound.grown_buildPayload built).rehandled _)
  | elementRefused _ _ built | itemRefused _ built =>
      exact .inr ((sound.grown_build built).rehandled _)
  | elementWritten named resolved built projected stored full =>
      exact .inl (sound.outcome_writes (.elementWritten named resolved built projected stored full)
        rfl rfl full)
  | contentWritten named built full =>
      exact .inl (sound.outcome_writes (.contentWritten named built full) rfl rfl full)
  | pushed named built full => exact .inl (sound.outcome_writes (.pushed named built full) rfl rfl full)

/-- Every step writes one block or none. -/
theorem writes_or_rehandled (sound : state.Sound typing []) (allocator : Allocator) (op : Op) :
    (∃ address block target, state.Writes allocator op address block target) ∨
      state.store.Rehandled (state.step allocator op).1.store :=
  sound.outcome_writes_or_rehandled (outcome_step allocator state op)

end Sound

end State

end LooseValue
