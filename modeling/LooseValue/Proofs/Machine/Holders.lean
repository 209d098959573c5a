import LooseValue.Proofs.Machine.Soundness
import LooseValue.Proofs.Machine.Steps
import LooseValue.Proofs.Projection
import LooseValue.Proofs.Store.Release

/-!
# Holders along a run

In every state that a run reaches, the holders of a block are the handles to it in named items and
inside live blocks. What a step discards, be it overwritten, cleared, dropped or refused, gives up
its handles, and if a block goes away with them the handles inside it too. In a state without cycles
just the blocks stay live that can be reached from a name, so that nothing is left once all names
have been dropped.
-/

set_option autoImplicit false

namespace LooseValue

/-- The store after a refused write is the one without the element. -/
theorem Store.setElement_of_error {store : Store} {kinds : List Kind} {index : Nat} {element : Item}
    {value : Value} {error : AccessError}
    (refused : (store.setElement kinds index element value).2.outcome = .error error) :
    (store.setElement kinds index element value).1 = store.release element.handles := by
  rcases store.setElement_cases kinds index element value with
    ⟨position, buffer, item, previous, rfl, projected, stored⟩ | ⟨_, dropped⟩
  · rw [setElement_of_getElem? projected stored] at refused
    cases refused
  · rw [dropped]

namespace State

/-- What an operation discards, and the store out of which it is discarded: arguments have been
built by then, and an overwritten block holds its new content. -/
inductive Discards (allocator : Allocator) (state : State) : Op → Item → Store → Prop where
  | drop {name : String} {register : Register} : state.register? name = some register →
      Discards allocator state (.drop name) register.item state.store
  | clear {name : String} {type : Ty} {kinds : List Kind} {value : Value} :
      state.value? name = some (type, kinds, value) →
      Discards allocator state (.value name .clear) (.value value) state.store
  | set {name : String} {type : Ty} {kinds : List Kind} {value : Value} {position : Nat}
      {kind : Kind} {literal : Literal} {payload : Payload} {store : Store} :
      state.value? name = some (type, kinds, value) → kinds[position]? = some kind →
      literal.buildPayload allocator state.registers kind state.store = some (payload, store) →
      Discards allocator state (.value name (.set position literal)) (.value value) store
  | overwrite {name : String} {type : Ty} {kinds : List Kind} {position : Nat} {kind : Kind}
      {literal : Literal} {previous payload : Payload} {store : Store} :
      state.value? name = some (type, kinds, .active ⟨position, previous⟩) →
      kinds[position]? = some kind →
      literal.buildPayload allocator state.registers kind state.store = some (payload, store) →
      Discards allocator state (.value name (.overwrite position literal)) (.plain previous) store
  | overwriteRefused {name : String} {type : Ty} {kinds : List Kind} {value : Value} {position : Nat}
      {kind : Kind} {literal : Literal} {payload : Payload} {store : Store} :
      state.value? name = some (type, kinds, value) → kinds[position]? = some kind →
      literal.buildPayload allocator state.registers kind state.store = some (payload, store) →
      value.payloadAt? position = none →
      Discards allocator state (.value name (.overwrite position literal)) (.plain payload) store
  | element {name : String} {type result : Ty} {kinds : List Kind} {position index : Nat}
      {buffer : Address} {literal : Literal} {element item previous : Item} {store : Store} :
      state.value? name = some (type, kinds, .active ⟨position, .sequence buffer⟩) →
      Shape.element kinds = some result →
      literal.build allocator state.registers result state.store = some (element, store) →
      Shape.project Kind.elementShape kinds position element = some item →
      (store.items buffer)[index]? = some previous →
      Discards allocator state (.value name (.setElement index literal)) previous
        (store.write buffer (.buffer ((store.items buffer).set index item)))
  | elementRefused {name : String} {type result : Ty} {kinds : List Kind} {value : Value}
      {index : Nat} {literal : Literal} {element : Item} {store : Store} {error : AccessError} :
      state.value? name = some (type, kinds, value) → Shape.element kinds = some result →
      literal.build allocator state.registers result state.store = some (element, store) →
      (store.setElement kinds index element value).2.outcome = .error error →
      Discards allocator state (.value name (.setElement index literal)) element store
  | content {name : String} {payload : Ty} {cell : Address} {literal : Literal} {item : Item}
      {store : Store} :
      state.register? name = some ⟨.kind (.shared payload), .plain (.shared cell)⟩ →
      literal.build allocator state.registers payload state.store = some (item, store) →
      Discards allocator state (.shared name (.write literal)) (store.content cell)
        (store.write cell (.cell item))
  | itemRefused {name : String} {payload : Ty} {buffer : Address} {index : Nat} {literal : Literal}
      {item : Item} {store : Store} {target : Option String} {op : SequenceOp} :
      state.register? name = some ⟨.kind (.sequence payload), .plain (.sequence buffer)⟩ →
      literal.build allocator state.registers payload state.store = some (item, store) →
      (store.items buffer).length ≤ index →
      op ∈ [.set index literal target, .update index literal target] →
      Discards allocator state (.sequence name op) item store
  /-- An item in hand that has no target. -/
  | undelivered {op : Op} {middle : State} {register : Register} :
      Carries allocator state op none middle register →
      Discards allocator state op register.item middle.store
  /-- What the target of an item in hand was bound to. -/
  | delivered {op : Op} {target : String} {middle : State} {register previous : Register} :
      Carries allocator state op (some target) middle register →
      middle.register? target = some previous →
      Discards allocator state op previous.item middle.store

variable {typing : StoreTyping} {state : State} {allocator : Allocator} {op : Op} {item : Item}
  {middle : Store}

private theorem heldBy_of_register? {name : String} {register : Register}
    (named : state.register? name = some register) : state.heldBy name = register.item.handles := by
  rw [heldBy, named]

namespace Sound

/-- A name that is bound anew gives up what it held. -/
private theorem put_releases {name : String} {previous : Register} (register : Register)
    (sound : state.Sound typing (register.item.handles ++ []))
    (typed : register.item.HasType typing register.type)
    (named : state.register? name = some previous) :
    ∃ roots, state.store.Counted (previous.item.handles ++ roots) ∧
      (state.put name register).store = state.store.release previous.item.handles := by
  have assigned := (sound.assign typed name).store.counted
  rw [heldBy_of_register? named, List.append_assoc] at assigned
  refine ⟨_, assigned, ?_⟩
  rw [State.put, heldBy_of_register? named]

end Sound

theorem Discards.released (sound : state.Sound typing [])
    (discards : state.Discards allocator op item middle) :
    ∃ roots, middle.Counted (item.handles ++ roots) ∧
      (state.step allocator op).1.store = middle.release item.handles := by
  -- In each case the discarded item is in hand, beside the names, in the store it is dropped from.
  cases discards with
  | @drop name register named =>
      have divided := state.roots_perm name
      rw [heldBy_of_register? named] at divided
      refine ⟨_, sound.counted.perm divided, ?_⟩
      simp [step, step?, named, remove, heldBy_of_register? named]
  | @clear name type kinds value named =>
      obtain ⟨registered, listed⟩ := value?_inv named
      have isValue := (Ty.kinds?_eq_some_iff.mp listed).1
      have released := sound.put_releases ⟨type, .value .undefined⟩ (.value isValue .undefined)
        registered
      simpa [step, step?, named, valueStep?] using released
  | @set name type kinds value position kind literal payload store named found built =>
      obtain ⟨registered, listed⟩ := value?_inv named
      obtain ⟨isValue, rfl⟩ := Ty.kinds?_eq_some_iff.mp listed
      obtain ⟨extended, _, kept, typed⟩ := sound.buildPayload built
      have released := kept.put_releases ⟨type, .value (.active ⟨position, payload⟩)⟩
        (.value isValue (.active found typed)) registered
      simpa [step, step?, named, valueStep?, found, built] using released
  | @overwrite name type kinds position kind literal previous payload store named found built =>
      obtain ⟨registered, listed⟩ := value?_inv named
      obtain ⟨isValue, rfl⟩ := Ty.kinds?_eq_some_iff.mp listed
      obtain ⟨extended, _, kept, typed⟩ := sound.buildPayload built
      have released := kept.put_releases ⟨type, .value (.active ⟨position, payload⟩)⟩
        (.value isValue (.active found typed)) registered
      simpa [step, step?, named, valueStep?, found, built, Value.payloadAt?, Item.handles,
        Value.handles] using released
  | overwriteRefused named found built inactive =>
      obtain ⟨extended, _, kept, _⟩ := sound.buildPayload built
      have counted := kept.store.counted
      rw [List.append_assoc] at counted
      refine ⟨_, counted, ?_⟩
      simp [step, step?, named, valueStep?, found, built, inactive, release]
  | @element name type result kinds position index buffer literal element item previous store
      named resolved built projected stored =>
      obtain ⟨registered, listed⟩ := value?_inv named
      obtain ⟨_, rfl⟩ := Ty.kinds?_eq_some_iff.mp listed
      obtain ⟨extended, _, kept, _⟩ := sound.build built
      have counted := kept.store.counted
      rw [List.append_assoc, ← Shape.handles_project projected] at counted
      have written := counted.write (Store.block?_of_getElem?_items stored)
        (Store.handles_perm_set stored item)
      refine ⟨_, written, ?_⟩
      rw [step_setElement named resolved built projected stored]
      rfl
  | @elementRefused name type result kinds value index literal element store error
      named resolved built refused =>
      obtain ⟨extended, _, kept, _⟩ := sound.build built
      have counted := kept.store.counted
      rw [List.append_assoc] at counted
      refine ⟨_, counted, ?_⟩
      simp [step, step?, named, valueStep?, resolved, built, Store.setElement_of_error refused]
  | content named built =>
      obtain ⟨extended, _, kept, typed⟩ := sound.build built
      have counted := (kept.writeContent named typed).store.counted
      rw [List.append_assoc] at counted
      refine ⟨_, counted, ?_⟩
      rw [step_writeContent named built]
      rfl
  | @itemRefused name payload buffer index literal item store target op named built beyond isWrite =>
      obtain ⟨extended, _, kept, _⟩ := sound.build built
      have counted := kept.store.counted
      rw [List.append_assoc] at counted
      refine ⟨_, counted, ?_⟩
      simp only [List.mem_cons, List.not_mem_nil, or_false] at isWrite
      rcases isWrite with rfl | rfl <;>
        simp [step, step?, named, sequenceStep?, exchangeItem?, built, Store.exchange_of_le beyond,
          Logged.refuse]
  | undelivered carries =>
      obtain ⟨extended, kept, _⟩ := sound.carries carries
      have counted := kept.store.counted
      rw [List.append_assoc] at counted
      refine ⟨_, counted, ?_⟩
      rw [carries.step]
      rfl
  | delivered carries bound =>
      obtain ⟨extended, kept, typed⟩ := sound.carries carries
      rw [carries.step]
      exact kept.put_releases _ typed bound

/-! ## All names dropped -/

private theorem registers_remove_perm {name : String} {names : List String}
    (all : (name :: names).Perm (state.registers.map Prod.fst)) :
    names.Perm ((state.remove name).registers.map Prod.fst) := by
  have erased : (state.remove name).registers.map Prod.fst =
      (state.registers.map Prod.fst).erase name := by
    rw [remove, List.erase_eq_eraseP', List.eraseP_map]
    rfl
  rw [erased]
  exact (List.cons_perm_iff_perm_erase.mp all).2

private theorem exists_register? {name : String} (named : name ∈ state.registers.map Prod.fst) :
    ∃ register, state.register? name = some register := by
  obtain ⟨⟨key, register⟩, member, rfl⟩ := List.mem_map.mp named
  apply Option.ne_none_iff_exists'.mp
  intro missing
  simpa using List.lookup_eq_none_iff.mp missing _ member

/-- Names may be dropped in any order: the last one takes the last live block with it. -/
theorem Sound.runWith_drops {names : List String} {steps : List (Allocator × Op)}
    (sound : state.Sound typing []) (acyclic : state.store.Acyclic)
    (all : names.Perm (state.registers.map Prod.fst))
    (drops : steps.map Prod.snd = names.map .drop) : (state.runWith steps).1 = initial := by
  induction names generalizing state steps with
  | nil =>
      cases List.map_eq_nil_iff.mp drops
      have none_left : state.registers = [] := List.map_eq_nil_iff.mp (List.nil_perm.mp all)
      obtain ⟨store, registers⟩ := state
      cases none_left
      have counted : store.Counted [] := sound.counted
      cases counted.eq_empty acyclic
      rfl
  | cons name names ih =>
      obtain ⟨⟨allocator, op⟩, others, rfl, isDrop, rest⟩ := List.map_eq_cons_iff.mp drops
      cases isDrop
      obtain ⟨register, named⟩ := exists_register? (all.mem_iff.mp List.mem_cons_self)
      have stepped : state.step allocator (.drop name) = (state.remove name, .answer .done) := by
        simp [State.step, State.step?, named]
      have fewer : (state.remove name).store.Acyclic :=
        acyclic.of_block? fun _ _ => Store.block?_of_block?_release sound.store.counted.distinct
      rw [State.runWith, stepped]
      exact ih (sound.remove name) fewer (registers_remove_perm all) rest

/-- Handle counting over runs: in every state that a run reaches, holders are handles; what a step
discards gives up its handles together with those of the blocks that go away; and without cycles
exactly the blocks that can be reached from a name are live, so that none is left after the last
name. -/
theorem holders_count_handles (reachable : state.Reachable) (allocator : Allocator) :
    (∀ address,
      state.store.holders address = (state.roots ++ state.store.handles).count address) ∧
    (∀ name payload cell,
      state.register? name = some ⟨.kind (.shared payload), .plain (.shared cell)⟩ →
      state.step allocator (.shared name .holders) =
        (state, .answer (.count ((state.roots ++ state.store.handles).count cell)))) ∧
    (∀ name payload buffer,
      state.register? name = some ⟨.kind (.sequence payload), .plain (.sequence buffer)⟩ →
      state.step allocator (.sequence name .holders) =
        (state, .answer (.count ((state.roots ++ state.store.handles).count buffer)))) ∧
    (∀ address, state.store.Reaches state.roots address → address ∈ state.store.addresses) ∧
    (∀ op item middle, state.Discards allocator op item middle →
      middle.GivesUp item.handles (state.step allocator op).1.store) ∧
    (state.store.Acyclic →
      (∀ address, address ∈ state.store.addresses ↔ state.store.Reaches state.roots address) ∧
      ∀ (names : List String) (steps : List (Allocator × Op)),
        names.Perm (state.registers.map Prod.fst) → steps.map Prod.snd = names.map .drop →
        (state.runWith steps).1 = initial) := by
  obtain ⟨typing, sound⟩ := reachable.sound
  have counted : state.store.Counted state.roots := sound.counted
  refine ⟨counted.holders_eq, ?_, ?_, ?_, ?_, ?_⟩
  · intro name payload cell named
    simp [step, step?, named, sharedStep?, counted.holders_eq]
  · intro name payload buffer named
    simp [step, step?, named, sequenceStep?, counted.holders_eq]
  · intro address
    exact counted.mem_addresses_of_reaches fun _ => counted.mem_addresses
  · intro op item middle discards
    obtain ⟨roots, middleCounted, released⟩ := discards.released sound
    rw [released]
    exact middleCounted.givesUp
  · intro acyclic
    exact ⟨fun _ => counted.mem_addresses_iff_reaches acyclic,
      fun _ _ => sound.runWith_drops acyclic⟩

def nestedType : Ty := .kind (.shared (.kind (.sequence (.kind .number))))

/-- Two names for one cell, which holds the only handle to a buffer. -/
def twiceNamed : State where
  store := ⟨[⟨2, 2, .cell (.plain (.sequence 1))⟩, ⟨1, 1, .buffer [.plain (.number (.zero false))]⟩]⟩
  registers := [("y", ⟨nestedType, .plain (.shared 2)⟩), ("x", ⟨nestedType, .plain (.shared 2)⟩)]

private theorem twiceNamed_reachable : twiceNamed.Reachable := by
  have created := Reachable.initial.create .ascending "x" nestedType
    (.shared (.sequence [.number (.zero false)])) rfl rfl
  exact created.clone "x" "y" rfl rfl

/-- The cell has two holders and the buffer one; a name that is dropped gives up its handle to the
cell, and so does a name that is bound anew; with both names cell and buffer are gone. -/
theorem twiceNamed_holders :
    twiceNamed.Reachable ∧ twiceNamed.store.Acyclic ∧
    twiceNamed.store.holders 2 = 2 ∧ twiceNamed.store.holders 1 = 1 ∧
    twiceNamed.step .ascending (.shared "x" .holders) = (twiceNamed, .answer (.count 2)) ∧
    twiceNamed.store.GivesUp [2] (twiceNamed.step .ascending (.drop "x")).1.store ∧
    (twiceNamed.store.retain [1]).GivesUp [2]
      (twiceNamed.step .ascending (.shared "x" (.get (some "y")))).1.store ∧
    (twiceNamed.runWith [(.ascending, .drop "x"), (.ascending, .drop "y")]).1 = initial := by
  have acyclic : twiceNamed.store.Acyclic := Store.acyclic_of_descending (by decide)
  have named : twiceNamed.register? "x" = some ⟨nestedType, .plain (.shared 2)⟩ := rfl
  have carries : twiceNamed.Carries .ascending (.shared "x" (.get (some "y"))) (some "y")
      (twiceNamed.retain (.plain (.sequence 1))) ⟨_, .plain (.sequence 1)⟩ := .content named
  have bound : (twiceNamed.retain (.plain (.sequence 1))).register? "y" =
      some ⟨nestedType, .plain (.shared 2)⟩ := rfl
  obtain ⟨holders, answers, _, _, gives, unheld⟩ :=
    holders_count_handles twiceNamed_reachable .ascending
  exact ⟨twiceNamed_reachable, acyclic, holders 2, holders 1, answers "x" _ 2 named,
    gives _ _ _ (.drop named), gives _ _ _ (.delivered carries bound),
    (unheld acyclic).2 ["x", "y"] _ (.swap ..) rfl⟩

end State

end LooseValue
