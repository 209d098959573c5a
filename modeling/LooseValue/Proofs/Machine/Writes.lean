import LooseValue.Proofs.Access.Lens
import LooseValue.Proofs.Machine.Soundness
import LooseValue.Proofs.Machine.Steps
import LooseValue.Proofs.Projection
import LooseValue.Proofs.Store.Frame

/-!
# Steps that write

An operation that writes through a handle makes new blocks for its argument, overwrites the one
block that the handle leads to, and drops what it put out. An operation on the slot of a value makes
new blocks and drops handles but overwrites no block. Either way the names that an operation does
not mention hold what they held before.
-/

set_option autoImplicit false

namespace LooseValue

/-! ## Building keeps every block -/

section Building

variable {allocator : Allocator} {registers : List (String × Register)}

mutual

private theorem Ty.keeps_makeDefault : ∀ (type : Ty) (store : Store),
    store.Keeps (type.makeDefault allocator store).2
  | .kind kind, store => Kind.keeps_makeDefault kind store
  | .value _, store => .refl store
  | .dynamic, store => .refl store

private theorem Kind.keeps_makeDefault : ∀ (kind : Kind) (store : Store),
    store.Keeps (kind.makeDefault allocator store).2
  | .boolean, store => .refl store
  | .number, store => .refl store
  | .text, store => .refl store
  | .shared payload, store =>
      (Ty.keeps_makeDefault payload store).trans (Store.keeps_allocate _ allocator _)
  | .sequence _, store => Store.keeps_allocate store allocator _

end

mutual

theorem Literal.keeps_build : ∀ (literal : Literal) {type : Ty} {store after : Store} {item : Item},
    literal.build allocator registers type store = some (item, after) → store.Keeps after
  | .boolean _, _, _, _, _, built => by
      cases makes_of_build built
      exact .refl _
  | .number _, _, _, _, _, built => by
      cases makes_of_build built
      exact .refl _
  | .text _, _, _, _, _, built => by
      cases makes_of_build built
      exact .refl _
  | .shared referent, _, _, _, _, built => by
      cases makes_of_build built with
      | shared first => exact (keeps_build referent first).trans (Store.keeps_allocate _ allocator _)
  | .sequence literals, _, _, _, _, built => by
      cases makes_of_build built with
      | sequence first =>
          exact (keeps_buildAll literals first).trans (Store.keeps_allocate _ allocator _)
  | .undefined, _, _, _, _, built => by
      cases makes_of_build built
      exact .refl _
  | .active _ literal, _, _, _, _, built => by
      cases makes_of_build built with
      | active _ _ first => exact keeps_build literal first
  | .default, type, store, _, _, built => by
      cases makes_of_build built
      exact type.keeps_makeDefault store
  | .copy _, _, store, _, _, built => by
      cases makes_of_build built
      exact store.keeps_retain _

private theorem Literal.keeps_buildAll :
    ∀ (literals : List Literal) {type : Ty} {store after : Store}
    {items : List Item},
    buildAll allocator registers literals type store = some (items, after) → store.Keeps after
  | [], _, _, _, _, built => by
      cases built
      exact .refl _
  | literal :: literals, _, _, _, _, built => by
      simp only [buildAll] at built
      split at built
      · cases built
      · next item middle first =>
          split at built
          · cases built
          · next rest last others =>
              cases built
              exact (keeps_build literal first).trans (keeps_buildAll literals others)

end

private theorem Literal.keeps_buildPayload {literal : Literal} {kind : Kind} {store after : Store}
    {payload : Payload}
    (built : literal.buildPayload allocator registers kind store = some (payload, after)) :
    store.Keeps after := by
  unfold buildPayload at built
  split at built
  · next own last first =>
      cases built
      exact literal.keeps_build first
  · cases built

end Building

/-! ## Operations by what they change -/

namespace Op

/-- The operations that change the value of a name and nothing else; one of them moves the value on
to a target. -/
inductive OnSlot (name : String) : Op → Option String → Prop where
  | set (position : Nat) (literal : Literal) : OnSlot name (.value name (.set position literal)) none
  | clear : OnSlot name (.value name .clear) none
  | take (target : Option String) : OnSlot name (.value name (.take target)) target
  | overwrite (position : Nat) (literal : Literal) :
      OnSlot name (.value name (.overwrite position literal)) none

end Op

namespace State

variable {typing : StoreTyping} {state next : State} {allocator : Allocator} {op : Op}
  {name : String} {register : Register} {target : Option String} {address : Address}
  {block : Block}

/-! ## Delivery of results -/

theorem exists_store_deliver (state : State) (target : Option String) (register : Register) :
    ∃ dropped, (state.deliver target register).store = state.store.release dropped := by
  cases target with
  | none => exact ⟨_, rfl⟩
  | some name => exact ⟨_, rfl⟩

theorem register?_deliver {other : String} (different : some other ≠ target) :
    (state.deliver target register).register? other = state.register? other := by
  cases target with
  | none => rfl
  | some name => exact register?_assign_of_ne (by simpa using different) register

/-! ## Writes -/

/-- The block that an operation writes, at which address, and where its result goes. -/
inductive Writes (allocator : Allocator) (state : State) :
    Op → Address → Block → Option String → Prop where
  | content {name : String} {payload : Ty} {cell : Address} {literal : Literal} {item : Item}
      {store : Store} {target : Option String} {op : SharedOp} :
      state.register? name = some ⟨.kind (.shared payload), .plain (.shared cell)⟩ →
      literal.build allocator state.registers payload state.store = some (item, store) →
      op ∈ [.replace literal target, .update literal target] →
      Writes allocator state (.shared name op) cell (.cell item) target
  | write {name : String} {payload : Ty} {cell : Address} {literal : Literal} {item : Item}
      {store : Store} :
      state.register? name = some ⟨.kind (.shared payload), .plain (.shared cell)⟩ →
      literal.build allocator state.registers payload state.store = some (item, store) →
      Writes allocator state (.shared name (.write literal)) cell (.cell item) none
  | item {name : String} {payload : Ty} {buffer : Address} {index : Nat} {literal : Literal}
      {item : Item} {store : Store} {target : Option String} {op : SequenceOp} :
      state.register? name = some ⟨.kind (.sequence payload), .plain (.sequence buffer)⟩ →
      literal.build allocator state.registers payload state.store = some (item, store) →
      index < (state.store.items buffer).length →
      op ∈ [.set index literal target, .update index literal target] →
      Writes allocator state (.sequence name op) buffer
        (.buffer ((state.store.items buffer).set index item)) target
  | push {name : String} {payload : Ty} {buffer : Address} {literal : Literal} {item : Item}
      {store : Store} :
      state.register? name = some ⟨.kind (.sequence payload), .plain (.sequence buffer)⟩ →
      literal.build allocator state.registers payload state.store = some (item, store) →
      Writes allocator state (.sequence name (.push literal)) buffer
        (.buffer (state.store.items buffer ++ [item])) none
  | pop {name : String} {payload : Ty} {buffer : Address} {item : Item} {target : Option String} :
      state.register? name = some ⟨.kind (.sequence payload), .plain (.sequence buffer)⟩ →
      (state.store.items buffer).getLast? = some item →
      Writes allocator state (.sequence name (.pop target)) buffer
        (.buffer (state.store.items buffer).dropLast) target
  | element {name : String} {type result : Ty} {kinds : List Kind} {position index : Nat}
      {buffer : Address} {literal : Literal} {element item : Item} {store : Store} :
      state.value? name = some (type, kinds, .active ⟨position, .sequence buffer⟩) →
      Shape.element kinds = some result →
      literal.build allocator state.registers result state.store = some (element, store) →
      Shape.project Kind.elementShape kinds position element = some item →
      index < (state.store.items buffer).length →
      Writes allocator state (.value name (.setElement index literal)) buffer
        (.buffer ((state.store.items buffer).set index item)) none

/-- A step that writes a block: new blocks are made, the block is overwritten, and handles are
dropped. Names other than the target keep what they hold. -/
structure Overwrites (state : State) (address : Address) (block : Block) (target : Option String)
    (next : State) : Prop where
  store : ∃ built previous dropped, state.store.Keeps built ∧ built.addresses.Nodup ∧
    state.store.block? address = some previous ∧
    next.store = (built.write address block).release dropped
  registers : ∀ other, some other ≠ target → next.register? other = state.register? other

theorem Sound.buffer_of_value? {type : Ty} {kinds : List Kind} {position : Nat} {buffer : Address}
    (sound : state.Sound typing [])
    (named : state.value? name = some (type, kinds, .active ⟨position, .sequence buffer⟩)) :
    state.store.block? buffer = some (.buffer (state.store.items buffer)) := by
  obtain ⟨registered, _⟩ := value?_inv named
  have live := sound.live_of_register? registered buffer List.mem_cons_self
  obtain ⟨kind, _, typed⟩ := (sound.typed_of_register? registered).toValue.inv
  cases typed with
  | sequence known => exact (sound.store.typed.buffer live known).1

private theorem Overwrites.of_deliver {built : Store} {previous : Block} (state : State)
    (target : Option String) (register : Register) (keeps : state.store.Keeps built)
    (distinct : built.addresses.Nodup) (found : state.store.block? address = some previous) :
    state.Overwrites address block target
      (deliver { state with store := built.write address block } target register) where
  store := by
    obtain ⟨dropped, released⟩ :=
      exists_store_deliver { state with store := built.write address block } target register
    exact ⟨built, previous, dropped, keeps, distinct, found, released⟩
  registers := fun _ different => register?_deliver different

private theorem Overwrites.of_release {built : Store} {previous : Block} (state : State)
    (dropped : List Address) (keeps : state.store.Keeps built) (distinct : built.addresses.Nodup)
    (found : state.store.block? address = some previous) :
    state.Overwrites address block none
      { state with store := (built.write address block).release dropped } where
  store := ⟨built, previous, dropped, keeps, distinct, found, rfl⟩
  registers := fun _ _ => rfl

private theorem Overwrites.of_write {built : Store} {previous : Block} (state : State)
    (keeps : state.store.Keeps built) (distinct : built.addresses.Nodup)
    (found : state.store.block? address = some previous) :
    state.Overwrites address block none { state with store := built.write address block } where
  store := ⟨built, previous, [], keeps, distinct, found, by rw [Store.release]⟩
  registers := fun _ _ => rfl

theorem Writes.overwrites (sound : state.Sound typing [])
    (writes : state.Writes allocator op address block target) :
    state.Overwrites address block target (state.step allocator op).1 := by
  cases writes with
  | content named built isWrite =>
      obtain ⟨_, _, kept, _⟩ := sound.build built
      obtain ⟨_, found, _⟩ := sound.cell_of_register? named
      rw [(Carries.exchangeContent named built isWrite).step]
      exact .of_deliver state target _ (Literal.keeps_build _ built) kept.store.counted.distinct found
  | write named built =>
      obtain ⟨_, _, kept, _⟩ := sound.build built
      obtain ⟨_, found, _⟩ := sound.cell_of_register? named
      rw [step_writeContent named built]
      exact .of_release state _ (Literal.keeps_build _ built) kept.store.counted.distinct found
  | @item name payload _ index literal item store _ op named built inside isWrite =>
      obtain ⟨_, _, kept, _⟩ := sound.build built
      obtain ⟨_, found, _⟩ := sound.buffer_of_register? named
      -- The index is checked after the argument was built, in a buffer that is still the same.
      have keeps := literal.keeps_build built
      rw [← keeps.items found] at inside ⊢
      have stored := List.getElem?_eq_getElem inside
      rw [(Carries.exchangeItem named built stored isWrite).step]
      exact .of_deliver state target _ keeps kept.store.counted.distinct found
  | @push name payload _ literal item store named built =>
      obtain ⟨_, _, kept, _⟩ := sound.build built
      obtain ⟨_, found, _⟩ := sound.buffer_of_register? named
      have keeps := literal.keeps_build built
      rw [step_push named built, ← keeps.items found]
      exact .of_write state keeps kept.store.counted.distinct found
  | pop named last =>
      obtain ⟨_, found, _⟩ := sound.buffer_of_register? named
      rw [(Carries.pop named last).step]
      exact .of_deliver state target _ (.refl _) sound.store.counted.distinct found
  | @element name type result kinds position index _ literal element item store named resolved
      built projected inside =>
      obtain ⟨_, _, kept, _⟩ := sound.build built
      have found := sound.buffer_of_value? named
      have keeps := literal.keeps_build built
      rw [← keeps.items found] at inside ⊢
      have stored := List.getElem?_eq_getElem inside
      rw [step_setElement named resolved built projected stored]
      exact .of_release state _ keeps kept.store.counted.distinct found

variable {middle : State} {report : Report}

theorem Sound.carries_writes (sound : state.Sound typing [])
    (carries : state.Carries allocator op target middle register) (isWrite : op.isWrite = true) :
    ∃ address block, state.Writes allocator op address block target := by
  cases carries with
  | create | clone | take | rewrap | payload | referent | element | content | item => cases isWrite
  | exchangeContent named built exchanges => exact ⟨_, _, .content named built exchanges⟩
  | exchangeItem named built stored exchanges =>
      obtain ⟨_, found, _⟩ := sound.buffer_of_register? named
      rw [(Literal.keeps_build _ built).items found] at stored
      exact ⟨_, _, .item named built (List.getElem?_eq_some_iff.mp stored).1 exchanges⟩
  | pop named last => exact ⟨_, _, .pop named last⟩

theorem Sound.outcome_writes {answer : Answer} (sound : state.Sound typing [])
    (outcome : state.Outcome allocator op next report) (isWrite : op.isWrite = true)
    (succeeded : report.outcome = .ok answer) (full : answer ≠ .done) :
    ∃ address block target, state.Writes allocator op address block target := by
  cases outcome with
  | unfit | readRefused | elementRefused | itemRefused => cases succeeded
  | answered isRead => exact absurd isWrite (by simp [isRead])
  | profiled | dropped | cleared | overwriteMissed => cases isWrite
  | exhausted =>
      cases succeeded
      exact absurd rfl full
  | @delivered _ target _ _ _ carries _ =>
      obtain ⟨address, block, writes⟩ := sound.carries_writes carries isWrite
      exact ⟨address, block, target, writes⟩
  | replaced _ _ _ isSet =>
      simp only [List.mem_cons, List.not_mem_nil, or_false] at isSet
      rcases isSet with rfl | rfl <;> cases isWrite
  | elementWritten named resolved built projected stored _ =>
      rw [(Literal.keeps_build _ built).items (sound.buffer_of_value? named)] at stored
      exact ⟨_, _, _, .element named resolved built projected (List.getElem?_eq_some_iff.mp stored).1⟩
  | contentWritten named built _ => exact ⟨_, _, _, .write named built⟩
  | pushed named built _ => exact ⟨_, _, _, .push named built⟩

/-- A write that succeeds writes some block, unless it asked for the last item of nothing. -/
theorem Sound.exists_writes {answer : Answer} (sound : state.Sound typing [])
    (isWrite : op.isWrite = true) (succeeded : (state.step allocator op).2.outcome = .ok answer)
    (full : answer ≠ .done) :
    ∃ address block target, state.Writes allocator op address block target :=
  sound.outcome_writes (outcome_step allocator state op) isWrite succeeded full

/-! ## Steps on slots -/

/-- A step that writes no block: new blocks are made, and handles are dropped. -/
structure Spares (state : State) (name : String) (target : Option String) (next : State) : Prop where
  store : ∃ built dropped, state.store.Keeps built ∧ built.addresses.Nodup ∧
    next.store = built.release dropped
  registers : ∀ other, other ≠ name → some other ≠ target →
    next.register? other = state.register? other

private theorem Spares.of_put {built : Store} (state : State) (name : String) (register : Register)
    (keeps : state.store.Keeps built) (distinct : built.addresses.Nodup) :
    state.Spares name none (put { state with store := built } name register) where
  store := ⟨built, _, keeps, distinct, rfl⟩
  registers := fun _ different _ => register?_assign_of_ne different register

theorem Spares.refl (distinct : state.store.addresses.Nodup) (name : String)
    (target : Option String) : state.Spares name target state where
  store := ⟨state.store, [], .refl _, distinct, by rw [Store.release]⟩
  registers := fun _ _ _ => rfl

private theorem Sound.outcome_spares (sound : state.Sound typing [])
    (outcome : state.Outcome allocator op next report) (onSlot : op.OnSlot name target) :
    state.Spares name target next := by
  have distinct := sound.store.counted.distinct
  cases outcome with
  | unfit | answered | readRefused => exact .refl distinct name target
  | profiled | exhausted | dropped | elementWritten | elementRefused | contentWritten | pushed
  | itemRefused => cases onSlot
  | delivered carries _ =>
      cases onSlot with
      | set | clear | overwrite => cases carries
      | take =>
          cases carries with
          | @take _ type _ value _ named =>
              obtain ⟨dropped, released⟩ := exists_store_deliver
                (state.assign name ⟨type, .value .undefined⟩) target ⟨type, .value value⟩
              refine ⟨⟨state.store, dropped, .refl _, distinct, released⟩, ?_⟩
              intro other different notTarget
              exact (register?_deliver notTarget).trans (register?_assign_of_ne different _)
  | cleared =>
      cases onSlot
      exact .of_put state name _ (.refl _) distinct
  | replaced _ _ built isSet =>
      obtain ⟨_, _, kept, _⟩ := sound.buildPayload built
      cases onSlot with
      | set | overwrite =>
          exact .of_put state name _ (Literal.keeps_buildPayload built) kept.store.counted.distinct
      | clear | take => simp at isSet
  | overwriteMissed _ _ built =>
      obtain ⟨_, _, kept, _⟩ := sound.buildPayload built
      cases onSlot
      exact ⟨⟨_, _, Literal.keeps_buildPayload built, kept.store.counted.distinct, rfl⟩,
        fun _ _ _ => rfl⟩

theorem Sound.spares (sound : state.Sound typing []) (onSlot : op.OnSlot name target) :
    state.Spares name target (state.step allocator op).1 :=
  sound.outcome_spares (outcome_step allocator state op) onSlot

end State

end LooseValue
