import LooseValue.Store

/-!
# Contents of a store

What can be read through a handle is the block at its address. Counting holders leaves all blocks
alone, writing changes the one that is written to, and releasing only takes blocks away: a block
that survives has the content it had before.
-/

set_option autoImplicit false

namespace LooseValue

namespace Store

section Blocks

variable {β : Type} {store : Store β} {address other : Address}

/-- The block at an address, its holders aside. -/
def block? (store : Store β) (address : Address) : Option β :=
  (store.find? address).map Entry.block

theorem address_of_find? {entry : Entry β} (found : store.find? address = some entry) :
    entry.address = address := by
  simpa using List.find?_some found

theorem mem_of_find? {entry : Entry β} (found : store.find? address = some entry) :
    entry ∈ store.entries :=
  List.mem_of_find?_eq_some found

theorem mem_addresses_iff : address ∈ store.addresses ↔ ∃ entry, store.find? address = some entry := by
  constructor
  · intro member
    obtain ⟨entry, inside, same⟩ := List.mem_map.mp member
    have found : (store.find? address).isSome = true :=
      List.find?_isSome.mpr ⟨entry, inside, by simpa using same⟩
    exact Option.isSome_iff_exists.mp found
  · intro ⟨entry, found⟩
    exact List.mem_map.mpr ⟨entry, mem_of_find? found, address_of_find? found⟩

theorem find?_eq_none_iff : store.find? address = none ↔ address ∉ store.addresses := by
  rw [mem_addresses_iff, not_exists, Option.eq_none_iff_forall_ne_some]

theorem find?_of_mem (distinct : store.addresses.Nodup) {entry : Entry β}
    (member : entry ∈ store.entries) : store.find? entry.address = some entry := by
  obtain ⟨entries⟩ := store
  simp only [addresses, find?] at distinct member ⊢
  induction entries with
  | nil => cases member
  | cons head tail ih =>
      simp only [List.map_cons, List.nodup_cons] at distinct
      rcases List.mem_cons.mp member with rfl | later
      · simp
      · have different : head.address ≠ entry.address := by
          intro same
          exact distinct.1 (same ▸ List.mem_map_of_mem later)
        rw [List.find?_cons_of_neg (by simpa using different)]
        exact ih distinct.2 later

theorem mem_addresses_of_block? {block : β} (found : store.block? address = some block) :
    address ∈ store.addresses := by
  obtain ⟨entry, entryFound, _⟩ := Option.map_eq_some_iff.mp found
  exact mem_addresses_iff.mpr ⟨entry, entryFound⟩

theorem exists_block?_of_mem (live : address ∈ store.addresses) :
    ∃ block, store.block? address = some block := by
  obtain ⟨entry, found⟩ := mem_addresses_iff.mp live
  exact ⟨entry.block, by rw [block?, found, Option.map_some]⟩

/-! ## Blocks after an operation -/

theorem block?_allocate_self (store : Store β) (allocator : Allocator) (block : β) :
    (store.allocate allocator block).2.block? (store.allocate allocator block).1 = some block := by
  simp [block?, find?, allocate]

theorem block?_allocate_of_ne {allocator : Allocator} {block : β}
    (different : other ≠ (store.allocate allocator block).1) :
    (store.allocate allocator block).2.block? other = store.block? other := by
  have skipped : (allocator.pick store.addresses == other) = false := by
    simpa [allocate] using Ne.symm different
  simp [block?, find?, allocate, skipped]

theorem addresses_recount (f : Nat → Nat) :
    (store.recount address f).addresses = store.addresses := by
  simp only [addresses, recount, List.map_map]
  apply List.map_congr_left
  intro entry _
  simp only [Function.comp]
  split <;> rfl

theorem retain_cons (store : Store β) (address : Address) (copied : List Address) :
    store.retain (address :: copied) = (store.recount address (· + 1)).retain copied := rfl

theorem addresses_retain (copied : List Address) : (store.retain copied).addresses = store.addresses := by
  induction copied generalizing store with
  | nil => rfl
  | cons head copied ih => rw [retain_cons, ih, addresses_recount]

theorem addresses_write (block : β) : (store.write address block).addresses = store.addresses := by
  simp only [addresses, write, List.map_map]
  apply List.map_congr_left
  intro entry _
  simp only [Function.comp]
  split <;> rfl

theorem find?_recount (f : Nat → Nat) :
    (store.recount address f).find? other =
      (store.find? other).map fun entry =>
        if entry.address = address then { entry with holders := f entry.holders } else entry := by
  simp only [find?, recount, List.find?_map]
  congr 2
  funext entry
  simp only [Function.comp]
  split <;> rfl

theorem find?_write (block : β) :
    (store.write address block).find? other =
      (store.find? other).map fun entry =>
        if entry.address = address then { entry with block } else entry := by
  simp only [find?, write, List.find?_map]
  congr 2
  funext entry
  simp only [Function.comp]
  split <;> rfl

@[simp] theorem block?_recount (f : Nat → Nat) :
    (store.recount address f).block? other = store.block? other := by
  simp only [block?, find?_recount, Option.map_map]
  congr 1
  funext entry
  simp only [Function.comp]
  split <;> rfl

@[simp] theorem block?_retain (copied : List Address) :
    (store.retain copied).block? other = store.block? other := by
  induction copied generalizing store with
  | nil => rfl
  | cons head copied ih => rw [retain_cons, ih, block?_recount]

theorem block?_write_self {before : β} (found : store.block? address = some before)
    (block : β) : (store.write address block).block? address = some block := by
  obtain ⟨entry, entryFound, _⟩ := Option.map_eq_some_iff.mp found
  have here := address_of_find? entryFound
  simp [block?, find?_write, entryFound, here]

theorem block?_write_of_ne (different : other ≠ address) (block : β) :
    (store.write address block).block? other = store.block? other := by
  simp only [block?, find?_write, Option.map_map]
  cases found : store.find? other with
  | none => rfl
  | some entry =>
      have there : entry.address ≠ address := by
        rw [address_of_find? found]
        exact different
      simp [there]

theorem write_eq_self (distinct : store.addresses.Nodup) {block : β}
    (found : store.block? address = some block) : store.write address block = store := by
  have same : ∀ entry ∈ store.entries,
      (if entry.address = address then { entry with block } else entry) = entry := by
    intro entry member
    by_cases here : entry.address = address
    · have own := find?_of_mem distinct member
      rw [here] at own
      rw [block?, own, Option.map_some, Option.some.injEq] at found
      rw [if_pos here, ← found]
    · rw [if_neg here]
  have entries := (List.map_congr_left same).trans (List.map_id' store.entries)
  rw [write, entries]

theorem entries_perm_erase {entry : Entry β} (found : store.find? address = some entry) :
    store.entries.Perm (entry :: (store.erase address).entries) := by
  obtain ⟨here, leading, suffix, divided, earlier⟩ := List.find?_eq_some_iff_append.mp found
  have erased : (store.erase address).entries = leading ++ suffix := by
    rw [erase, divided, List.eraseP_append_right]
    · simp [here]
    · intro candidate member
      simpa using earlier candidate member
  rw [erased, divided]
  exact List.perm_middle

theorem addresses_perm_erase {entry : Entry β} (found : store.find? address = some entry) :
    store.addresses.Perm (address :: (store.erase address).addresses) := by
  have shrunk := (entries_perm_erase found).map Entry.address
  rwa [List.map_cons, address_of_find? found] at shrunk

theorem nodup_erase (distinct : store.addresses.Nodup) {entry : Entry β}
    (found : store.find? address = some entry) :
    address ∉ (store.erase address).addresses ∧ (store.erase address).addresses.Nodup :=
  List.nodup_cons.mp ((addresses_perm_erase found).nodup distinct)

theorem address_ne_of_mem_erase (distinct : store.addresses.Nodup) {entry candidate : Entry β}
    (found : store.find? address = some entry)
    (member : candidate ∈ (store.erase address).entries) : candidate.address ≠ address := by
  intro same
  have listed : candidate.address ∈ (store.erase address).addresses := List.mem_map_of_mem member
  rw [same] at listed
  exact (nodup_erase distinct found).1 listed

theorem find?_erase_of_ne (different : other ≠ address) :
    (store.erase address).find? other = store.find? other := by
  obtain ⟨entries⟩ := store
  simp only [find?, erase]
  induction entries with
  | nil => rfl
  | cons head tail ih =>
      by_cases here : head.address = address
      · have elsewhere : head.address ≠ other := by
          intro same
          exact different (same.symm.trans here)
        rw [List.eraseP_cons_of_pos (by simpa using here),
          List.find?_cons_of_neg (by simpa using elsewhere)]
      · rw [List.eraseP_cons_of_neg (by simpa using here)]
        simp only [List.find?_cons, ih]

/-- A surviving block has the content it had before, whatever was released. -/
theorem block?_of_block?_release [Holder β] (distinct : store.addresses.Nodup) {dropped : List Address}
    {block : β} (survives : (store.release dropped).block? other = some block) :
    store.block? other = some block := by
  fun_induction Store.release store dropped with
  | case1 => exact survives
  | case2 store address rest missing ih => exact ih distinct survives
  | case3 store address rest entry found last ih =>
      obtain ⟨gone, remaining⟩ := nodup_erase distinct found
      have before := ih remaining survives
      have different : other ≠ address := by
        intro same
        rw [same, block?, find?_eq_none_iff.mpr gone] at before
        cases before
      rw [block?, find?_erase_of_ne different] at before
      exact before
  | case4 store address rest entry found several ih =>
      have before := ih (by rw [addresses_recount]; exact distinct) survives
      rw [block?_recount] at before
      exact before

end Blocks

/-! ## Items read through a handle -/

variable {store : Store} {address : Address}

theorem items_eq (store : Store) (address : Address) :
    store.items address =
      match store.block? address with
      | some (.buffer items) => items
      | _ => [] := by
  unfold Store.items block?
  cases store.find? address with
  | none => rfl
  | some entry =>
      obtain ⟨_, _, block⟩ := entry
      cases block <;> rfl

theorem content_eq (store : Store) (address : Address) :
    store.content address =
      match store.block? address with
      | some (.cell content) => content
      | _ => .value .undefined := by
  unfold Store.content block?
  cases store.find? address with
  | none => rfl
  | some entry =>
      obtain ⟨_, _, block⟩ := entry
      cases block <;> rfl

theorem block?_of_getElem?_items {index : Nat} {item : Item}
    (found : (store.items address)[index]? = some item) :
    store.block? address = some (.buffer (store.items address)) := by
  rw [items_eq] at found ⊢
  cases block : store.block? address with
  | none => simp [block] at found
  | some stored =>
      cases stored with
      | cell content => simp [block] at found
      | buffer items => rfl

theorem mem_handles_of_block? {block : Block} {handle : Address}
    (found : store.block? address = some block) (inside : handle ∈ block.handles) :
    handle ∈ store.handles := by
  obtain ⟨entry, entryFound, rfl⟩ := Option.map_eq_some_iff.mp found
  exact List.mem_flatMap.mpr ⟨entry, mem_of_find? entryFound, inside⟩

/-- The block at the first address holds a handle to the second. -/
def Points (store : Store) (holder held : Address) : Prop :=
  ∃ block, store.block? holder = some block ∧ held ∈ block.handles

theorem Points.mem_handles {held : Address} (points : store.Points address held) :
    held ∈ store.handles := by
  obtain ⟨block, found, inside⟩ := points
  exact mem_handles_of_block? found inside

theorem points_of_mem_content {handle : Address}
    (inside : handle ∈ (store.content address).handles) : store.Points address handle := by
  rw [content_eq] at inside
  cases found : store.block? address with
  | none => simp [found, Item.handles, Value.handles] at inside
  | some block =>
      cases block with
      | cell content =>
          rw [found] at inside
          exact ⟨_, found, inside⟩
      | buffer items => simp [found, Item.handles, Value.handles] at inside

theorem points_of_mem_items {item : Item} {handle : Address} (member : item ∈ store.items address)
    (inside : handle ∈ item.handles) : store.Points address handle := by
  obtain ⟨index, stored⟩ := List.mem_iff_getElem?.mp member
  exact ⟨_, block?_of_getElem?_items stored, List.mem_flatMap.mpr ⟨item, member, inside⟩⟩

theorem mem_handles_of_content {handle : Address}
    (inside : handle ∈ (store.content address).handles) : handle ∈ store.handles :=
  (points_of_mem_content inside).mem_handles

theorem mem_handles_of_item {index : Nat} {item : Item} {handle : Address}
    (found : (store.items address)[index]? = some item) (inside : handle ∈ item.handles) :
    handle ∈ store.handles :=
  (points_of_mem_items (List.mem_of_getElem? found) inside).mem_handles

end Store

end LooseValue
