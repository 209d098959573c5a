import LooseValue.Proofs.Store.Counting
import LooseValue.Proofs.Typing

/-!
# Sound stores

A store is sound relative to its roots and a typing if it is counted and well typed. Neither part
stands alone: a write keeps the count because the typing says what is there to be overwritten, and
the typing of a new block can be chosen freely because the count says that no handle leads there
yet. An address may be used again after its block went away, so that typings do not simply grow
along a run; they agree on the addresses that are live.
-/

set_option autoImplicit false

namespace LooseValue

variable {typing other : StoreTyping}

/-! ## Typings that agree -/

theorem Payload.HasKind.congr {payload : Payload} {kind : Kind} (typed : payload.HasKind typing kind)
    (agree : ∀ handle ∈ payload.handles, other handle = typing handle) :
    payload.HasKind other kind := by
  cases typed with
  | boolean => exact .boolean
  | number => exact .number
  | text => exact .text
  | shared known => exact .shared ((agree _ List.mem_cons_self).trans known)
  | sequence known => exact .sequence ((agree _ List.mem_cons_self).trans known)

theorem Item.HasType.congr {item : Item} {type : Ty} (typed : item.HasType typing type)
    (agree : ∀ handle ∈ item.handles, other handle = typing handle) : item.HasType other type := by
  cases typed with
  | plain typed => exact .plain (typed.congr agree)
  | value isValue typed =>
      cases typed with
      | undefined => exact .value isValue .undefined
      | active found typed => exact .value isValue (.active found (typed.congr agree))

theorem Block.HasKind.congr {block : Block} {kind : Kind} (typed : block.HasKind typing kind)
    (agree : ∀ handle ∈ block.handles, other handle = typing handle) : block.HasKind other kind := by
  cases typed with
  | cell typed => exact .cell (typed.congr agree)
  | buffer typed =>
      refine .buffer ?_
      intro item member
      refine (typed item member).congr ?_
      intro handle inside
      exact agree handle (List.mem_flatMap.mpr ⟨item, member, inside⟩)

namespace Store

variable {store : Store} {roots : List Address} {address : Address} {block : Block} {kind : Kind}

/-! ## Well-typed blocks -/

theorem WellTyped.of_block? (typed : store.WellTyped typing)
    (found : store.block? address = some block) :
    ∃ kind, typing address = some kind ∧ block.HasKind typing kind := by
  obtain ⟨entry, entryFound, rfl⟩ := Option.map_eq_some_iff.mp found
  obtain ⟨kind, known, blockTyped⟩ := typed entry (mem_of_find? entryFound)
  rw [address_of_find? entryFound] at known
  exact ⟨kind, known, blockTyped⟩

private theorem WellTyped.exists_block? (typed : store.WellTyped typing)
    (live : address ∈ store.addresses)
    (known : typing address = some kind) :
    ∃ block, store.block? address = some block ∧ block.HasKind typing kind := by
  obtain ⟨entry, found⟩ := mem_addresses_iff.mp live
  have block : store.block? address = some entry.block := by
    rw [block?, found, Option.map_some]
  obtain ⟨own, ownKnown, blockTyped⟩ := typed.of_block? block
  rw [known] at ownKnown
  cases ownKnown
  exact ⟨entry.block, block, blockTyped⟩

/-- A live handle to a cell leads to a cell. -/
theorem WellTyped.cell {payload : Ty} (typed : store.WellTyped typing)
    (live : address ∈ store.addresses) (known : typing address = some (.shared payload)) :
    store.block? address = some (.cell (store.content address)) ∧
      (store.content address).HasType typing payload := by
  obtain ⟨block, found, blockTyped⟩ := typed.exists_block? live known
  rw [content_eq, found]
  cases blockTyped with
  | cell contentTyped => exact ⟨rfl, contentTyped⟩

/-- A live handle to a buffer leads to a buffer. -/
theorem WellTyped.buffer {payload : Ty} (typed : store.WellTyped typing)
    (live : address ∈ store.addresses) (known : typing address = some (.sequence payload)) :
    store.block? address = some (.buffer (store.items address)) ∧
      ∀ item ∈ store.items address, item.HasType typing payload := by
  obtain ⟨block, found, blockTyped⟩ := typed.exists_block? live known
  rw [items_eq, found]
  cases blockTyped with
  | buffer itemsTyped => exact ⟨rfl, itemsTyped⟩

private theorem wellTyped_of_block? (distinct : store.addresses.Nodup)
    (typed : ∀ address block, store.block? address = some block →
      ∃ kind, typing address = some kind ∧ block.HasKind typing kind) : store.WellTyped typing := by
  intro entry member
  apply typed
  rw [block?, find?_of_mem distinct member, Option.map_some]

structure Sound (typing : StoreTyping) (roots : List Address) (store : Store) : Prop where
  counted : store.Counted roots
  typed : store.WellTyped typing

theorem sound_empty (typing : StoreTyping) : empty.Sound typing [] where
  counted := ⟨List.nodup_nil, fun _ member => (List.not_mem_nil member).elim, fun _ => Iff.rfl⟩
  typed := fun _ member => (List.not_mem_nil member).elim

namespace Sound

theorem perm {others : List Address} (sound : store.Sound typing roots) (same : roots.Perm others) :
    store.Sound typing others :=
  ⟨sound.counted.perm same, sound.typed⟩

theorem mem_addresses_of_handles (sound : store.Sound typing roots) (held : address ∈ store.handles) :
    address ∈ store.addresses :=
  (sound.counted.live address).mpr (List.mem_append_right _ held)

/-! ## Operations -/

theorem release {dropped : List Address} (sound : store.Sound typing (dropped ++ roots)) :
    (store.release dropped).Sound typing roots := by
  have counted := sound.counted.release
  refine ⟨counted, wellTyped_of_block? counted.distinct ?_⟩
  intro address block survives
  exact sound.typed.of_block? (block?_of_block?_release sound.counted.distinct survives)

theorem retain {copied : List Address} (sound : store.Sound typing roots)
    (live : ∀ address ∈ copied, address ∈ store.addresses) :
    (store.retain copied).Sound typing (copied ++ roots) := by
  have counted := sound.counted.retain live
  refine ⟨counted, wellTyped_of_block? counted.distinct ?_⟩
  intro address block found
  rw [block?_retain] at found
  exact sound.typed.of_block? found

theorem write {before : Block} {taken given : List Address}
    (sound : store.Sound typing (taken ++ roots)) (found : store.block? address = some before)
    (known : typing address = some kind) (typed : block.HasKind typing kind)
    (exchanged : (block.handles ++ given).Perm (before.handles ++ taken)) :
    (store.write address block).Sound typing (given ++ roots) := by
  have counted := sound.counted.write found exchanged
  refine ⟨counted, wellTyped_of_block? counted.distinct ?_⟩
  intro other stored alive
  by_cases here : other = address
  · subst here
    rw [block?_write_self found] at alive
    cases alive
    exact ⟨kind, known, typed⟩
  · rw [block?_write_of_ne here] at alive
    exact sound.typed.of_block? alive

theorem congr (sound : store.Sound typing roots)
    (agree : ∀ address ∈ store.addresses, other address = typing address) :
    store.Sound other roots := by
  refine ⟨sound.counted, ?_⟩
  intro entry member
  obtain ⟨kind, known, typed⟩ := sound.typed entry member
  refine ⟨kind, ?_, typed.congr ?_⟩
  · rw [agree _ (List.mem_map_of_mem member), known]
  · intro handle inside
    exact agree handle (sound.mem_addresses_of_handles (List.mem_flatMap.mpr ⟨entry, member, inside⟩))

/-- A new block has the kind that its handle is to have. -/
theorem allocate (sound : store.Sound typing (block.handles ++ roots))
    (typed : block.HasKind typing kind) (allocator : Allocator) :
    ∃ extended : StoreTyping, (∀ address ∈ store.addresses, extended address = typing address) ∧
      extended (store.allocate allocator block).1 = some kind ∧
      (store.allocate allocator block).2.Sound extended ((store.allocate allocator block).1 :: roots) := by
  have fresh := allocator.fresh store.addresses
  let extended : StoreTyping := fun address =>
    if address = allocator.pick store.addresses then some kind else typing address
  have agree : ∀ address ∈ store.addresses, extended address = typing address := by
    intro address live
    refine if_neg ?_
    intro same
    exact fresh (same ▸ live)
  have here : extended (allocator.pick store.addresses) = some kind := if_pos rfl
  refine ⟨extended, agree, here, sound.counted.allocate allocator, ?_⟩
  intro entry member
  rcases List.mem_cons.mp member with rfl | old
  · refine ⟨kind, here, typed.congr ?_⟩
    intro handle inside
    exact agree handle (sound.counted.mem_addresses (List.mem_append_left _ inside))
  · exact (sound.congr agree).typed entry old

end Sound

end Store

end LooseValue
