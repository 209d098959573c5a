import LooseValue.Proofs.Access.Soundness
import LooseValue.Proofs.Machine.Building
import LooseValue.Proofs.Machine.Steps

/-!
# Soundness of runs

A state is sound if its store is, with the handles of all named items as roots, and every named item
has its type. While an operation is under way, further handles may be in hand; they count as roots
beside those of the names. Every step leads from a sound state to a sound state, so that every state
that a run reaches is counted and well typed, for a typing that changes with the run. Nothing is
assumed of the operations: one that does not fit the names and types of the state changes nothing.
Nor is anything assumed of the allocators, which may be other ones at every step.
-/

set_option autoImplicit false

namespace LooseValue

private theorem Value.payloadAt?_eq_some_iff {value : Value} {position : Nat} {payload : Payload} :
    value.payloadAt? position = some payload ↔ value = .active ⟨position, payload⟩ := by
  cases value with
  | undefined => simp [payloadAt?]
  | active alternative =>
      obtain ⟨own, ownPayload⟩ := alternative
      simp [payloadAt?]

namespace State

theorem value?_inv {state : State} {name : String} {type : Ty} {kinds : List Kind} {value : Value}
    (named : state.value? name = some (type, kinds, value)) :
    state.register? name = some ⟨type, .value value⟩ ∧ type.kinds? = some kinds := by
  unfold value? at named
  split at named
  · next own held registered =>
      obtain ⟨listed, isList, same⟩ := Option.map_eq_some_iff.mp named
      cases same
      exact ⟨registered, isList⟩
  · cases named

theorem step_compare {state : State} {left right : String} {a b : Ty × List Kind × Value}
    (allocator : Allocator) (namedA : state.value? left = some a)
    (namedB : state.value? right = some b) :
    (state.step allocator (.compare left right)).2 =
      .answer (.comparison (a.2.2.looseEq b.2.2) (b.2.2.looseEq a.2.2)) := by
  simp [step, step?, namedA, namedB]

structure Sound (typing : StoreTyping) (inHand : List Address) (state : State) : Prop where
  store : state.store.Sound typing (inHand ++ state.roots)
  registers : ∀ named ∈ state.registers, named.2.item.HasType typing named.2.type

variable {typing : StoreTyping} {inHand : List Address} {state : State} {name : String}
  {register : Register} {item : Item} {allocator : Allocator}

theorem sound_initial (typing : StoreTyping) : initial.Sound typing [] where
  store := Store.sound_empty typing
  registers := fun _ member => (List.not_mem_nil member).elim

namespace Sound

theorem counted (sound : state.Sound typing []) : state.Counted := sound.store.counted

theorem held (sound : state.Sound typing inHand) :
    Held typing (inHand ++ state.roots) state.registers where
  typed := sound.registers
  rooted := by
    intro named member handle inside
    exact List.mem_append_right _ (List.mem_flatMap.mpr ⟨named, member, inside⟩)

/-! ## Names -/

theorem typed_of_register? (sound : state.Sound typing inHand)
    (named : state.register? name = some register) : register.item.HasType typing register.type :=
  sound.registers _ (mem_of_lookup named)

theorem mem_roots_of_register? (named : state.register? name = some register) :
    ∀ handle ∈ register.item.handles, handle ∈ state.roots := by
  intro handle inside
  exact List.mem_flatMap.mpr ⟨_, mem_of_lookup named, inside⟩

theorem live_of_register? (sound : state.Sound typing inHand)
    (named : state.register? name = some register) :
    ∀ handle ∈ register.item.handles, handle ∈ state.store.addresses := by
  intro handle inside
  exact sound.store.counted.mem_addresses
    (List.mem_append_right _ (mem_roots_of_register? named handle inside))

theorem assign (sound : state.Sound typing (register.item.handles ++ inHand))
    (typed : register.item.HasType typing register.type) (name : String) :
    (state.assign name register).Sound typing (state.heldBy name ++ inHand) where
  store := by
    rw [roots_assign]
    refine sound.store.perm ?_
    have divided := (state.roots_perm name).append_left (register.item.handles ++ inHand)
    refine divided.trans ?_
    apply List.perm_iff_count.mpr
    intro candidate
    simp only [List.count_append]
    omega
  registers := by
    intro named member
    rcases List.mem_cons.mp member with rfl | old
    · exact typed
    · exact sound.registers named (List.mem_of_mem_eraseP old)

/-- Handles in hand are dropped. -/
theorem drop {dropped : List Address} (sound : state.Sound typing (dropped ++ inHand)) :
    Sound typing inHand { state with store := state.store.release dropped } where
  store := by
    have store := sound.store
    rw [List.append_assoc] at store
    exact store.release
  registers := sound.registers

theorem put (sound : state.Sound typing (register.item.handles ++ inHand))
    (typed : register.item.HasType typing register.type) (name : String) :
    (state.put name register).Sound typing inHand :=
  (sound.assign typed name).drop

theorem remove (sound : state.Sound typing inHand) (name : String) :
    (state.remove name).Sound typing inHand where
  store := by
    refine Store.Sound.release (sound.store.perm ?_)
    exact ((state.roots_perm name).append_left inHand).trans (List.perm_append_comm_assoc ..)
  registers := by
    intro named member
    exact sound.registers named (List.mem_of_mem_eraseP member)

/-! ## Items in hand -/

theorem retain (sound : state.Sound typing inHand)
    (live : ∀ handle ∈ item.handles, handle ∈ state.store.addresses) :
    (state.retain item).Sound typing (item.handles ++ inHand) where
  store := by
    have store := sound.store.retain live
    rwa [← List.append_assoc] at store
  registers := sound.registers

theorem release (sound : state.Sound typing (item.handles ++ inHand)) :
    (state.release item).Sound typing inHand :=
  sound.drop

theorem deliver (sound : state.Sound typing (register.item.handles ++ inHand))
    (typed : register.item.HasType typing register.type) (target : Option String) :
    (state.deliver target register).Sound typing inHand := by
  cases target with
  | none => exact sound.release
  | some name => exact sound.put typed name

/-- A new store with handles in hand. -/
theorem withStore {extended : StoreTyping} {handles : List Address} {store : Store}
    (sound : state.Sound typing inHand)
    (agree : ∀ root ∈ inHand ++ state.roots, extended root = typing root)
    (storeSound : store.Sound extended (handles ++ (inHand ++ state.roots))) :
    Sound extended (handles ++ inHand) { state with store } where
  store := by
    rw [List.append_assoc]
    exact storeSound
  registers := by
    intro named member
    refine (sound.registers named member).congr ?_
    intro handle inside
    exact agree handle (sound.held.rooted named member handle inside)

theorem build {literal : Literal} {type : Ty} {store : Store} (sound : state.Sound typing inHand)
    (built : literal.build allocator state.registers type state.store = some (item, store)) :
    ∃ extended, (∀ root ∈ inHand ++ state.roots, extended root = typing root) ∧
      Sound extended (item.handles ++ inHand) { state with store } ∧ item.HasType extended type := by
  obtain ⟨extended, agree, storeSound, typed⟩ := literal.build_made sound.store sound.held built
  exact ⟨extended, agree, sound.withStore agree storeSound, typed⟩

theorem buildPayload {literal : Literal} {kind : Kind} {store : Store} {payload : Payload}
    (sound : state.Sound typing inHand)
    (built : literal.buildPayload allocator state.registers kind state.store = some (payload, store)) :
    ∃ extended, (∀ root ∈ inHand ++ state.roots, extended root = typing root) ∧
      Sound extended (payload.handles ++ inHand) { state with store } ∧
      payload.HasKind extended kind := by
  obtain ⟨extended, agree, storeSound, typed⟩ := Literal.buildPayload_made sound.store sound.held built
  exact ⟨extended, agree, sound.withStore agree storeSound, typed⟩

/-! ## Writes -/

section Reference

variable {payload : Ty} {cell : Address}

theorem cell_of_register? (sound : state.Sound typing inHand)
    (named : state.register? name = some ⟨.kind (.shared payload), .plain (.shared cell)⟩) :
    typing cell = some (.shared payload) ∧
      state.store.block? cell = some (.cell (state.store.content cell)) ∧
      (state.store.content cell).HasType typing payload := by
  have live := sound.live_of_register? named cell List.mem_cons_self
  cases sound.typed_of_register? named with
  | plain typed =>
      cases typed with
      | shared known => exact ⟨known, sound.store.typed.cell live known⟩

/-- The content of a named cell is in hand after another one was written in its place. -/
theorem writeContent (sound : state.Sound typing (item.handles ++ inHand))
    (named : state.register? name = some ⟨.kind (.shared payload), .plain (.shared cell)⟩)
    (itemTyped : item.HasType typing payload) :
    Sound typing ((state.store.content cell).handles ++ inHand)
      { state with store := state.store.write cell (.cell item) } where
  store := by
    obtain ⟨known, found, _⟩ := sound.cell_of_register? named
    have store := sound.store
    rw [List.append_assoc] at store ⊢
    exact store.write found known (.cell itemTyped) List.perm_append_comm
  registers := sound.registers

end Reference

section Sequence

variable {payload : Ty} {buffer : Address}

theorem buffer_of_register? (sound : state.Sound typing inHand)
    (named : state.register? name = some ⟨.kind (.sequence payload), .plain (.sequence buffer)⟩) :
    typing buffer = some (.sequence payload) ∧
      state.store.block? buffer = some (.buffer (state.store.items buffer)) ∧
      ∀ item ∈ state.store.items buffer, item.HasType typing payload := by
  have live := sound.live_of_register? named buffer List.mem_cons_self
  cases sound.typed_of_register? named with
  | plain typed =>
      cases typed with
      | sequence known => exact ⟨known, sound.store.typed.buffer live known⟩

/-- The items of a named buffer are overwritten; handles in hand may go into it or come out. -/
theorem writeItems {items : List Item} {taken given : List Address}
    (sound : state.Sound typing (taken ++ inHand))
    (named : state.register? name = some ⟨.kind (.sequence payload), .plain (.sequence buffer)⟩)
    (itemsTyped : ∀ item ∈ items, item.HasType typing payload)
    (exchanged : ((Block.buffer items).handles ++ given).Perm
      ((Block.buffer (state.store.items buffer)).handles ++ taken)) :
    Sound typing (given ++ inHand)
      { state with store := state.store.write buffer (.buffer items) } where
  store := by
    obtain ⟨known, found, _⟩ := sound.buffer_of_register? named
    have store := sound.store
    rw [List.append_assoc] at store ⊢
    exact store.write found known (.buffer itemsTyped) exchanged
  registers := sound.registers

end Sequence

/-! ## Steps and runs -/

variable {op : Op} {target : Option String} {middle next : State} {report : Report}

theorem carries (sound : state.Sound typing [])
    (carries : state.Carries allocator op target middle register) :
    ∃ extended, middle.Sound extended (register.item.handles ++ []) ∧
      register.item.HasType extended register.type := by
  cases carries with
  | create built =>
      obtain ⟨extended, _, kept, typed⟩ := sound.build built
      exact ⟨extended, kept, typed⟩
  | clone named =>
      exact ⟨typing, sound.retain (sound.live_of_register? named), sound.typed_of_register? named⟩
  | @take name type kinds value _ named =>
      obtain ⟨registered, listed⟩ := value?_inv named
      have isValue := (Ty.kinds?_eq_some_iff.mp listed).1
      have emptied : (state.assign name ⟨type, .value .undefined⟩).Sound typing
          (state.heldBy name ++ []) := by
        apply assign
        · exact sound
        · exact .value isValue .undefined
      refine ⟨typing, ?_, sound.typed_of_register? registered⟩
      simpa only [heldBy, registered] using emptied
  | rewrap named =>
      obtain ⟨registered, _⟩ := value?_inv named
      exact ⟨typing, sound.retain (sound.live_of_register? registered),
        sound.typed_of_register? registered⟩
  | payload named found active =>
      obtain ⟨registered, listed⟩ := value?_inv named
      obtain ⟨_, rfl⟩ := Ty.kinds?_eq_some_iff.mp listed
      obtain rfl := Value.payloadAt?_eq_some_iff.mp active
      obtain ⟨own, ownFound, payloadTyped⟩ := (sound.typed_of_register? registered).toValue.inv
      rw [found] at ownFound
      cases ownFound
      have live := sound.live_of_register? registered
      exact ⟨typing, sound.retain live, .plain payloadTyped⟩
  | referent named resolved granted =>
      obtain ⟨registered, listed⟩ := value?_inv named
      obtain ⟨_, rfl⟩ := Ty.kinds?_eq_some_iff.mp listed
      have outcome := congrArg Logged.outcome granted
      refine ⟨typing, sound.retain ?_, ?_⟩
      · intro handle inside
        exact sound.store.mem_addresses_of_handles (Store.mem_handles_of_referent outcome inside)
      · exact sound.store.referent_typed (sound.typed_of_register? registered).toValue
          (sound.live_of_register? registered) resolved outcome
  | element named resolved granted =>
      obtain ⟨registered, listed⟩ := value?_inv named
      obtain ⟨_, rfl⟩ := Ty.kinds?_eq_some_iff.mp listed
      have outcome := congrArg Logged.outcome granted
      refine ⟨typing, sound.retain ?_, ?_⟩
      · intro handle inside
        exact sound.store.mem_addresses_of_handles (Store.mem_handles_of_element outcome inside)
      · exact sound.store.element_typed (sound.typed_of_register? registered).toValue
          (sound.live_of_register? registered) resolved outcome
  | content named =>
      refine ⟨typing, sound.retain ?_, (sound.cell_of_register? named).2.2⟩
      intro handle inside
      exact sound.store.mem_addresses_of_handles (Store.mem_handles_of_content inside)
  | exchangeContent named built _ =>
      obtain ⟨extended, _, kept, itemTyped⟩ := sound.build built
      exact ⟨extended, kept.writeContent named itemTyped, (kept.cell_of_register? named).2.2⟩
  | item named stored =>
      obtain ⟨_, _, itemsTyped⟩ := sound.buffer_of_register? named
      refine ⟨typing, sound.retain ?_, itemsTyped _ (List.mem_of_getElem? stored)⟩
      intro handle inside
      exact sound.store.mem_addresses_of_handles (Store.mem_handles_of_item stored inside)
  | exchangeItem named built stored _ =>
      obtain ⟨extended, _, kept, itemTyped⟩ := sound.build built
      obtain ⟨_, _, itemsTyped⟩ := kept.buffer_of_register? named
      refine ⟨extended, ?_, itemsTyped _ (List.mem_of_getElem? stored)⟩
      exact kept.writeItems named (Store.Sound.typed_of_mem_set itemsTyped itemTyped)
        (Store.handles_perm_set stored _)
  | pop named last =>
      obtain ⟨_, _, itemsTyped⟩ := sound.buffer_of_register? named
      refine ⟨typing, writeItems sound named ?_ (Store.handles_perm_dropLast last), ?_⟩
      · intro other member
        exact itemsTyped other (List.dropLast_subset _ member)
      · exact itemsTyped _ (List.mem_of_getLast? last)

theorem outcome (sound : state.Sound typing [])
    (outcome : state.Outcome allocator op next report) : ∃ extended, next.Sound extended [] := by
  cases outcome with
  | unfit | answered | profiled | exhausted | readRefused => exact ⟨typing, sound⟩
  | @delivered _ target middle register _ carries =>
      obtain ⟨extended, kept, typed⟩ := sound.carries carries
      exact ⟨extended, kept.deliver typed target⟩
  | dropped => exact ⟨typing, sound.remove _⟩
  | @cleared name type _ _ _ _ named =>
      have isValue := (Ty.kinds?_eq_some_iff.mp (value?_inv named).2).1
      refine ⟨typing, put ?_ ?_ name⟩
      · exact sound
      · exact .value isValue .undefined
  | @replaced name type _ _ position _ _ payload _ _ _ _ named found built =>
      obtain ⟨isValue, rfl⟩ := Ty.kinds?_eq_some_iff.mp (value?_inv named).2
      obtain ⟨extended, _, kept, typed⟩ := sound.buildPayload built
      refine ⟨extended, put ?_ ?_ name⟩
      · exact kept
      · exact .value isValue (.active found typed)
  | overwriteMissed named found built =>
      obtain ⟨extended, _, kept, _⟩ := sound.buildPayload built
      exact ⟨extended, kept.drop⟩
  | @elementWritten name type result kinds position index buffer literal element item previous
      store answer named resolved built projected stored =>
      obtain ⟨registered, listed⟩ := value?_inv named
      obtain ⟨_, rfl⟩ := Ty.kinds?_eq_some_iff.mp listed
      obtain ⟨extended, _, kept, itemTyped⟩ := sound.build built
      have valueTyped : Value.HasKinds extended type.members (.active ⟨position, .sequence buffer⟩) :=
        (kept.typed_of_register? registered).toValue
      have storeKept := kept.store
      rw [List.append_nil] at storeKept
      have written : (store.setElement type.members index element
          (.active ⟨position, .sequence buffer⟩)).1.Sound extended state.roots :=
        storeKept.setElement valueTyped (mem_roots_of_register? registered) resolved itemTyped
      rw [Store.setElement_of_getElem? projected stored] at written
      exact ⟨extended, written, kept.registers⟩
  | elementRefused _ _ built =>
      obtain ⟨extended, _, kept, _⟩ := sound.build built
      exact ⟨extended, kept.drop⟩
  | contentWritten named built =>
      obtain ⟨extended, _, kept, itemTyped⟩ := sound.build built
      exact ⟨extended, (kept.writeContent named itemTyped).release⟩
  | @pushed _ _ buffer _ item store _ named built =>
      obtain ⟨extended, _, kept, itemTyped⟩ := sound.build built
      obtain ⟨_, _, itemsTyped⟩ := kept.buffer_of_register? named
      refine ⟨extended, kept.writeItems named ?_ (Store.handles_perm_append (store.items buffer) item)⟩
      intro other member
      rcases List.mem_append.mp member with old | new
      · exact itemsTyped other old
      · rw [List.mem_singleton.mp new]
        exact itemTyped
  | itemRefused _ built =>
      obtain ⟨extended, _, kept, _⟩ := sound.build built
      exact ⟨extended, kept.drop⟩

theorem step (sound : state.Sound typing []) (allocator : Allocator) (op : Op) :
    ∃ extended, (state.step allocator op).1.Sound extended [] :=
  sound.outcome (outcome_step allocator state op)

end Sound

/-! ## Reachable states -/

/-- The states that runs lead to, whatever addresses the new blocks get. -/
def Reachable (state : State) : Prop := ∃ steps, (initial.runWith steps).1 = state

theorem Sound.runWith (sound : state.Sound typing []) (steps : List (Allocator × Op)) :
    ∃ extended, (state.runWith steps).1.Sound extended [] := by
  induction steps generalizing state typing with
  | nil => exact ⟨typing, sound⟩
  | cons step steps ih =>
      obtain ⟨extended, next⟩ := sound.step step.1 step.2
      exact ih next

private theorem put_of_unnamed (unnamed : state.register? name = none) (store : Store)
    (register : Register) :
    State.put ⟨store, state.registers⟩ name register =
      State.assign ⟨store, state.registers⟩ name register := by
  have unheld : heldBy ⟨store, state.registers⟩ name = [] := by
    unfold heldBy register?
    rw [show state.registers.lookup name = none from unnamed]
  rw [put, unheld, Store.release]
  rfl

theorem step_create_of_unnamed {literal : Literal} {type : Ty} {store : Store}
    (unnamed : state.register? name = none)
    (built : literal.build allocator state.registers type state.store = some (item, store)) :
    (state.step allocator (.create name type literal)).1 =
      State.assign ⟨store, state.registers⟩ name ⟨type, item⟩ :=
  (Carries.create built).step.trans (put_of_unnamed unnamed ..)

namespace Reachable

/-- Every state that a run reaches is sound, for a typing of its own. -/
theorem sound (reachable : state.Reachable) : ∃ typing, state.Sound typing [] := by
  obtain ⟨steps, rfl⟩ := reachable
  exact (sound_initial fun _ => none).runWith steps

theorem initial : State.initial.Reachable := ⟨[], rfl⟩

theorem runWith (reachable : state.Reachable) (steps : List (Allocator × Op)) :
    (state.runWith steps).1.Reachable := by
  obtain ⟨earlier, rfl⟩ := reachable
  exact ⟨earlier ++ steps, runWith_append ..⟩

theorem step (reachable : state.Reachable) (allocator : Allocator) (op : Op) :
    (state.step allocator op).1.Reachable :=
  reachable.runWith [(allocator, op)]

/-- A literal under a new name. -/
theorem create {store : Store} (reachable : state.Reachable) (allocator : Allocator)
    (name : String) (type : Ty) (literal : Literal) (unnamed : state.register? name = none)
    (built : literal.build allocator state.registers type state.store = some (item, store)) :
    (State.assign ⟨store, state.registers⟩ name ⟨type, item⟩).Reachable := by
  rw [← step_create_of_unnamed unnamed built]
  exact reachable.step allocator _

/-- A copy under a new name. -/
theorem clone (reachable : state.Reachable) (source name : String)
    (named : state.register? source = some register) (unnamed : state.register? name = none) :
    ((state.retain register.item).assign name register).Reachable := by
  have stepped : (state.step .ascending (.clone source name)).1 =
      (state.retain register.item).put name register := (Carries.clone named).step
  have assigned := stepped.trans (put_of_unnamed unnamed ..)
  exact assigned ▸ reachable.step .ascending _

end Reachable

end State

end LooseValue
