import LooseValue.Proofs.Machine.Effects
import LooseValue.Proofs.Machine.Frame
import LooseValue.Proofs.Store.Nesting

/-!
# Runs over finite types

A run that creates nothing of a type that contains itself has only finite types to deal with, since
every other type in it is a part of a type that was created, or is merged from such parts. What a
write puts into a block is typed by the payload of the block's own kind and nests less than it, so
that no step closes a cycle; and then nothing that is shown or dropped nests deeper than its type.
-/

set_option autoImplicit false

namespace LooseValue

/-! ## Types of results -/

private theorem Shape.isFinite_of_merge {left right : Shape} {type : Ty}
    (leftFinite : ∀ own, left = some own → own.isFinite = true)
    (rightFinite : ∀ own, right = some own → own.isFinite = true)
    (merged : left.merge right = some type) : type.isFinite = true := by
  cases left with
  | none => exact rightFinite type merged
  | some one =>
      cases right with
      | none => exact leftFinite type merged
      | some other =>
          cases merged
          apply Kind.allFinite_iff.mpr
          intro kind member
          rcases List.mem_append.mp member with first | second
          · exact (Ty.isFinite_of_mem (leftFinite one rfl) first).1
          · exact (Ty.isFinite_of_mem (rightFinite other rfl) second).1

private theorem Shape.isFinite_of_resolve {contribution : Kind → Shape} {kinds : List Kind}
    {type : Ty}
    (contributed : ∀ kind payload, contribution kind = some payload → kind.isFinite = true →
      payload.isFinite = true)
    (finite : ∀ kind ∈ kinds, kind.isFinite = true)
    (resolved : resolve contribution kinds = some type) : type.isFinite = true := by
  induction kinds generalizing type with
  | nil => cases resolved
  | cons kind kinds ih =>
      refine isFinite_of_merge ?_ ?_ resolved
      · intro payload shape
        exact contributed kind payload shape (finite kind List.mem_cons_self)
      · intro rest shape
        exact ih (fun other member => finite other (List.mem_cons_of_mem _ member)) shape

private theorem Kind.isFinite_of_referentShape {kind : Kind} {payload : Ty}
    (shape : kind.referentShape = some payload) (finite : kind.isFinite = true) :
    payload.isFinite = true := by
  cases kind with
  | shared own =>
      cases shape
      exact finite
  | boolean | number | text | sequence => cases shape

private theorem Kind.isFinite_of_elementShape {kind : Kind} {payload : Ty}
    (shape : kind.elementShape = some payload) (finite : kind.isFinite = true) :
    payload.isFinite = true := by
  cases kind with
  | sequence own =>
      cases shape
      exact finite
  | boolean | number | text | shared => cases shape

namespace Op

/-- Whether the operation brings in no type that contains itself. -/
def isFinite : Op → Bool
  | .create _ type _ => type.isFinite
  | _ => true

end Op

namespace State

variable {typing : StoreTyping} {state next : State} {allocator : Allocator} {op : Op}
  {name : String} {type : Ty} {register : Register} {report : Report} {address : Address}
  {block : Block} {target : Option String}

/-! ## Types of names -/

def TypesFinite (state : State) : Prop := ∀ named ∈ state.registers, named.2.type.isFinite = true

namespace TypesFinite

theorem of_register? (finite : state.TypesFinite) (named : state.register? name = some register) :
    register.type.isFinite = true :=
  finite _ (mem_of_lookup named)

theorem put (finite : state.TypesFinite) (own : register.type.isFinite = true) (name : String) :
    (state.put name register).TypesFinite := by
  intro named member
  rcases List.mem_cons.mp member with rfl | old
  · exact own
  · exact finite named (List.mem_of_mem_eraseP old)

theorem deliver (finite : state.TypesFinite) (own : register.type.isFinite = true)
    (target : Option String) : (state.deliver target register).TypesFinite := by
  cases target with
  | none => exact finite
  | some name => exact finite.put own name

theorem value? {kinds : List Kind} {value : Value} (finite : state.TypesFinite)
    (named : state.value? name = some (type, kinds, value)) :
    type.isFinite = true ∧ ∀ kind ∈ kinds, kind.isFinite = true := by
  obtain ⟨registered, listed⟩ := value?_inv named
  obtain ⟨_, rfl⟩ := Ty.kinds?_eq_some_iff.mp listed
  have own : type.isFinite = true := finite.of_register? registered
  exact ⟨own, fun kind member => (Ty.isFinite_of_mem own member).1⟩

/-- The type of an item in hand was created, or it is a part of the type of some name, or it is
merged from such parts. -/
theorem carries (finite : state.TypesFinite) (isFinite : op.isFinite = true)
    (carries : state.Carries allocator op target next register) :
    next.TypesFinite ∧ register.type.isFinite = true := by
  cases carries with
  | create => exact ⟨finite, isFinite⟩
  | clone named => exact ⟨finite, finite.of_register? named⟩
  | take named =>
      have own := (finite.value? named).1
      exact ⟨finite.put own _, own⟩
  | rewrap named => exact ⟨finite, (finite.value? named).1⟩
  | payload named found => exact ⟨finite, (finite.value? named).2 _ (List.mem_of_getElem? found)⟩
  | referent named resolved =>
      exact ⟨finite, Shape.isFinite_of_resolve (fun _ _ => Kind.isFinite_of_referentShape)
        (finite.value? named).2 resolved⟩
  | element named resolved =>
      exact ⟨finite, Shape.isFinite_of_resolve (fun _ _ => Kind.isFinite_of_elementShape)
        (finite.value? named).2 resolved⟩
  | content named | exchangeContent named =>
      have own := finite.of_register? named
      exact ⟨finite, own⟩
  | item named | exchangeItem named | pop named =>
      have own := finite.of_register? named
      exact ⟨finite, own⟩

theorem outcome (finite : state.TypesFinite) (isFinite : op.isFinite = true)
    (outcome : state.Outcome allocator op next report) : next.TypesFinite := by
  cases outcome with
  | unfit | answered | profiled | exhausted | readRefused => exact finite
  | overwriteMissed | elementWritten | elementRefused | contentWritten | pushed | itemRefused =>
      exact finite
  | @delivered _ target _ _ _ carries =>
      obtain ⟨kept, own⟩ := finite.carries isFinite carries
      exact kept.deliver own target
  | dropped => exact fun other member => finite other (List.mem_of_mem_eraseP member)
  | cleared named | replaced named => exact finite.put (finite.value? named).1 _

theorem step (finite : state.TypesFinite) (isFinite : op.isFinite = true) :
    (state.step allocator op).1.TypesFinite :=
  finite.outcome isFinite (outcome_step allocator state op)

end TypesFinite

/-! ## Written blocks -/

/-- Whatever can be reached from the name of a finite type cannot be reached from its own content. -/
theorem Sound.not_above {inHand : List Address} (sound : state.Sound typing inHand)
    (finite : state.TypesFinite) (named : state.register? name = some register)
    (held : address ∈ register.item.handles) : ¬ state.store.Above address address := by
  have typed := sound.typed_of_register? named
  exact sound.store.typed.not_above (typed.within (finite.of_register? named) address held)

/-- A write in progress: the argument has been built, the block is overwritten, and nothing has been
dropped yet. -/
structure Writing (state : State) (address : Address) (block : Block) (built : Store)
    (typing : StoreTyping) (inHand : List Address) : Prop where
  grown : state.store.Grown built
  found : ∃ previous, built.block? address = some previous
  sound : Sound typing inHand { state with store := built.write address block }
  named : ∃ name register, state.register? name = some register ∧ address ∈ register.item.handles

private theorem Sound.writing_content {payload : Ty} {item : Item} {built : Store}
    {inHand : List Address}
    (kept : Sound typing (item.handles ++ inHand) { state with store := built })
    (growth : state.store.Grown built)
    (named : state.register? name = some ⟨.kind (.shared payload), .plain (.shared address)⟩)
    (itemTyped : item.HasType typing payload) :
    state.Writing address (.cell item) built typing
      ((built.content address).handles ++ inHand) where
  grown := growth
  found := ⟨_, (kept.cell_of_register? named).2.1⟩
  sound := kept.writeContent named itemTyped
  named := ⟨name, _, named, List.mem_cons_self⟩

private theorem Sound.writing_items {payload : Ty} {items : List Item} {built : Store}
    {taken given inHand : List Address}
    (kept : Sound typing (taken ++ inHand) { state with store := built })
    (growth : state.store.Grown built)
    (named : state.register? name = some ⟨.kind (.sequence payload), .plain (.sequence address)⟩)
    (itemsTyped : ∀ item ∈ items, item.HasType typing payload)
    (exchanged : ((Block.buffer items).handles ++ given).Perm
      ((Block.buffer (built.items address)).handles ++ taken)) :
    state.Writing address (.buffer items) built typing (given ++ inHand) where
  grown := growth
  found := ⟨_, (kept.buffer_of_register? named).2.1⟩
  sound := kept.writeItems named itemsTyped exchanged
  named := ⟨name, _, named, List.mem_cons_self⟩

private theorem Writes.exists_writing (sound : state.Sound typing [])
    (writes : state.Writes allocator op address block target) :
    ∃ built dropped extended inHand, state.Writing address block built extended inHand ∧
      (state.step allocator op).1.store = (built.write address block).release dropped := by
  cases writes with
  | @content name payload _ literal item store _ op named built exchanges =>
      obtain ⟨extended, _, kept, itemTyped⟩ := sound.build built
      obtain ⟨dropped, released⟩ := exists_store_deliver
        { state with store := store.write address (.cell item) } target ⟨payload, store.content address⟩
      rw [(Carries.exchangeContent named built exchanges).step, released]
      exact ⟨store, dropped, extended, _,
        kept.writing_content (sound.grown_build built) named itemTyped, rfl⟩
  | @write name payload _ literal item store named built =>
      obtain ⟨extended, _, kept, itemTyped⟩ := sound.build built
      rw [step_writeContent named built]
      exact ⟨store, _, extended, _,
        kept.writing_content (sound.grown_build built) named itemTyped, rfl⟩
  | @item name payload _ index literal item store _ op named built inside exchanges =>
      obtain ⟨extended, _, kept, itemTyped⟩ := sound.build built
      obtain ⟨_, _, itemsTyped⟩ := kept.buffer_of_register? named
      rw [← (literal.keeps_build built).items (sound.buffer_of_register? named).2.1] at inside ⊢
      have stored := List.getElem?_eq_getElem inside
      obtain ⟨dropped, released⟩ := exists_store_deliver
        { state with store := store.write address (.buffer ((store.items address).set index item)) }
        target ⟨payload, (store.items address)[index]⟩
      rw [(Carries.exchangeItem named built stored exchanges).step, released]
      exact ⟨store, dropped, extended, _, kept.writing_items (sound.grown_build built) named
        (Store.Sound.typed_of_mem_set itemsTyped itemTyped) (Store.handles_perm_set stored item), rfl⟩
  | @push name payload _ literal item store named built =>
      obtain ⟨extended, _, kept, itemTyped⟩ := sound.build built
      obtain ⟨_, _, itemsTyped⟩ := kept.buffer_of_register? named
      rw [step_push named built,
        ← (literal.keeps_build built).items (sound.buffer_of_register? named).2.1]
      have pushedTyped : ∀ other ∈ store.items address ++ [item], other.HasType extended payload := by
        intro other member
        rcases List.mem_append.mp member with old | new
        · exact itemsTyped other old
        · rw [List.mem_singleton.mp new]
          exact itemTyped
      exact ⟨store, [], extended, _, kept.writing_items (sound.grown_build built) named pushedTyped
        (Store.handles_perm_append (store.items address) item), by rw [Store.release]⟩
  | @pop name payload _ item _ named last =>
      obtain ⟨_, _, itemsTyped⟩ := sound.buffer_of_register? named
      obtain ⟨dropped, released⟩ := exists_store_deliver { state with
        store := state.store.write address (.buffer (state.store.items address).dropLast) }
        target ⟨payload, item⟩
      rw [(Carries.pop named last).step, released]
      have kept : Sound typing ([] ++ []) { state with store := state.store } := sound
      exact ⟨state.store, dropped, typing, _, kept.writing_items .refl named
        (fun other member => itemsTyped other (List.dropLast_subset _ member))
        (Store.handles_perm_dropLast last), rfl⟩
  | @element name type result kinds position index _ literal element item store named resolved
      built projected inside =>
      obtain ⟨extended, _, kept, elementTyped⟩ := sound.build built
      obtain ⟨registered, listed⟩ := value?_inv named
      obtain ⟨_, rfl⟩ := Ty.kinds?_eq_some_iff.mp listed
      have buffer := sound.buffer_of_value? named
      have keeps := literal.keeps_build built
      rw [← keeps.items buffer] at inside ⊢
      have stored := List.getElem?_eq_getElem inside
      rw [step_setElement named resolved built projected stored]
      obtain ⟨kind, found, payloadTyped⟩ := (kept.typed_of_register? registered).toValue.inv
      have merged : (Shape.element type.members).Holds extended element := by
        rw [resolved]
        exact .some elementTyped
      obtain ⟨itemHeld, embedded⟩ := (Shape.project_eq_some_iff found merged).mp projected
      cases payloadTyped with
      | @sequence _ payload known =>
          have storeKept := kept.store
          rw [List.append_nil, ← embedded, Shape.handles_embed] at storeKept
          have written := storeKept.writeItem known
            (Sound.mem_roots_of_register? registered address List.mem_cons_self)
            (Shape.holds_some.mp itemHeld) stored
          exact ⟨store, _, extended, _, ⟨sound.grown_build built, ⟨_, keeps _ _ buffer⟩,
            ⟨written.1, kept.registers⟩, ⟨name, _, registered, List.mem_cons_self⟩⟩, rfl⟩

/-! ## Steps and runs -/

theorem Writing.acyclic {built : Store} {inHand : List Address}
    (writing : state.Writing address block built typing inHand) (counted : state.Counted)
    (acyclic : state.store.Acyclic) (finite : state.TypesFinite) :
    (built.write address block).Acyclic := by
  obtain ⟨previous, found⟩ := writing.found
  obtain ⟨name, register, named, held⟩ := writing.named
  have closed : ∀ handle ∈ state.store.handles, handle ∈ state.store.addresses := by
    intro handle inside
    exact (counted.live handle).mpr (List.mem_append_right _ inside)
  exact (writing.grown.acyclic acyclic closed).write found (writing.sound.not_above finite named held)

/-- No step over finite types closes a cycle. -/
theorem Sound.acyclic_step (sound : state.Sound typing []) (acyclic : state.store.Acyclic)
    (finite : state.TypesFinite) (allocator : Allocator) (op : Op) :
    (state.step allocator op).1.store.Acyclic := by
  rcases sound.writes_or_rehandled allocator op with ⟨address, block, target, writes⟩ | rehandled
  · obtain ⟨built, dropped, extended, inHand, writing, released⟩ := writes.exists_writing sound
    rw [released]
    refine (writing.acyclic sound.counted acyclic finite).of_block? ?_
    intro other stored survives
    exact Store.block?_of_block?_release writing.sound.store.counted.distinct survives
  · obtain ⟨grown, dropped, growth, released⟩ := rehandled
    rw [released]
    have closed : ∀ handle ∈ state.store.handles, handle ∈ state.store.addresses := by
      intro handle inside
      exact sound.store.mem_addresses_of_handles inside
    refine (growth.acyclic acyclic closed).of_block? ?_
    intro other stored survives
    exact Store.block?_of_block?_release (growth.nodup sound.counted.distinct) survives

theorem runWith_acyclic {steps : List (Allocator × Op)} (sound : state.Sound typing [])
    (acyclic : state.store.Acyclic) (finite : state.TypesFinite)
    (isFinite : ∀ step ∈ steps, step.2.isFinite = true) :
    (state.runWith steps).1.store.Acyclic ∧ (state.runWith steps).1.TypesFinite := by
  induction steps generalizing state typing with
  | nil => exact ⟨acyclic, finite⟩
  | cons step steps ih =>
      obtain ⟨extended, next⟩ := sound.step step.1 step.2
      exact ih next (sound.acyclic_step acyclic finite step.1 step.2)
        (finite.step (isFinite step List.mem_cons_self))
        fun other member => isFinite other (List.mem_cons_of_mem _ member)

private theorem Sound.exists_within (sound : state.Sound typing []) (acyclic : state.store.Acyclic)
    (finite : state.TypesFinite) (live : address ∈ state.store.addresses) :
    ∃ depth, typing.Within depth address := by
  -- Without cycles a live block is reached from some name, whose type bounds what is behind it.
  have reached := (sound.counted.mem_addresses_iff_reaches acyclic).mp live
  induction reached with
  | handle root =>
      obtain ⟨named, member, held⟩ := List.mem_flatMap.mp root
      exact ⟨_, (sound.registers named member).within (finite named member) _ held⟩
  | @inside holder lower reached points ih =>
      obtain ⟨depth, within⟩ := ih ((sound.counted.mem_addresses_iff_reaches acyclic).mpr reached)
      obtain ⟨block, found, inside⟩ := points
      obtain ⟨entry, entryFound, rfl⟩ := Option.map_eq_some_iff.mp found
      obtain ⟨inner, _, below⟩ := sound.store.typed.within_of_find? entryFound within
      exact ⟨inner, below lower inside⟩

/-- A run that creates items of finite types only never builds a cycle. All its storage is of finite
kinds, and showing or dropping an item nests no deeper than the type of the item, be it named or
stored anywhere. -/
theorem finite_runs_nest {steps : List (Allocator × Op)}
    (isFinite : ∀ step ∈ steps, step.2.isFinite = true) :
    let state := (initial.runWith steps).1
    state.store.Acyclic ∧
    (∀ name register, state.register? name = some register →
      register.type.isFinite = true ∧
        state.store.NestsWithin register.item register.type.nesting) ∧
    ∃ typing, state.Sound typing [] ∧
      (∀ address ∈ state.store.addresses, ∃ kind,
        typing address = some kind ∧ kind.isFinite = true) ∧
      ∀ item type, item.HasType typing type → type.isFinite = true →
        (∀ handle ∈ item.handles, handle ∈ state.store.addresses) →
        state.store.NestsWithin item type.nesting := by
  intro state
  have none : initial.TypesFinite := fun _ member => (List.not_mem_nil member).elim
  obtain ⟨typing, sound⟩ := (sound_initial fun _ => .none).runWith steps
  obtain ⟨acyclic, finite⟩ := runWith_acyclic (sound_initial typing) Store.acyclic_empty none isFinite
  refine ⟨acyclic, ?_, typing, sound, ?_, ?_⟩
  · intro name register named
    have own := finite.of_register? named
    exact ⟨own, sound.store.nestsWithin acyclic (sound.typed_of_register? named) own
      (sound.live_of_register? named)⟩
  · intro address live
    obtain ⟨depth, kind, known, kindFinite, _⟩ := sound.exists_within acyclic finite live
    exact ⟨kind, known, kindFinite⟩
  · intro item type itemTyped own live
    exact sound.store.nestsWithin acyclic itemTyped own live

/-- One cell twice in a sequence, and the sequence behind a reference in a value. -/
def nestedRun : List (Allocator × Op) :=
  [(.ascending, .create "c" (.kind (.shared (.kind .text))) (.shared (.text "a"))),
    (.ascending, .create "s" (.kind (.sequence (.kind (.shared (.kind .text)))))
      (.sequence [.copy "c"])),
    (.ascending, .sequence "s" (.push (.copy "c"))),
    (.ascending,
      .create "v" (.value [.number, .shared (.kind (.sequence (.kind (.shared (.kind .text)))))])
        (.active 1 (.shared (.copy "s"))))]

theorem nestedRun_nests :
    (∀ step ∈ nestedRun, step.2.isFinite = true) ∧
    (initial.runWith nestedRun).1.store.Acyclic ∧
    ∃ register, (initial.runWith nestedRun).1.register? "v" = some register ∧
      (initial.runWith nestedRun).1.store.NestsWithin register.item 3 := by
  have isFinite : ∀ step ∈ nestedRun, step.2.isFinite = true := by decide
  obtain ⟨acyclic, nests, _⟩ := finite_runs_nest isFinite
  obtain ⟨_, within⟩ := nests "v" _ rfl
  exact ⟨isFinite, acyclic, _, rfl, within⟩

end State

end LooseValue
