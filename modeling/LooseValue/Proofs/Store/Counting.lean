import LooseValue.Proofs.Store.Contents

/-!
# Counting of handles

A store is counted relative to the handles that are held outside of it, its roots: every live block
has as many holders as there are handles to it, in the roots and inside live blocks, and the live
blocks are exactly those that some handle leads to. Items in the hands of an operation count as
roots. Each store operation moves handles between the roots and the blocks and keeps the count.
-/

set_option autoImplicit false

namespace LooseValue

namespace Store

/-! ## Counts alone -/

section Counts

variable {β : Type} {store : Store β} {address : Address} {entry : Entry β}

private theorem mem_entries_recount {f : Nat → Nat}
    (member : entry ∈ (store.recount address f).entries) :
    ∃ before ∈ store.entries, entry.address = before.address ∧
      entry.holders = if before.address = address then f before.holders else before.holders := by
  obtain ⟨before, inside, rfl⟩ := List.mem_map.mp member
  refine ⟨before, inside, ?_⟩
  split <;> exact ⟨rfl, rfl⟩

private theorem recount_succ_comm (store : Store β) (first second : Address) :
    (store.recount first (· + 1)).recount second (· + 1) =
      (store.recount second (· + 1)).recount first (· + 1) := by
  simp only [recount, List.map_map, Store.mk.injEq]
  apply List.map_congr_left
  intro entry _
  simp only [Function.comp]
  grind

private theorem recount_pred_succ (store : Store β) (address : Address) :
    (store.recount address (· + 1)).recount address (· - 1) = store := by
  obtain ⟨entries⟩ := store
  simp only [recount, List.map_map, Store.mk.injEq]
  refine (List.map_congr_left ?_).trans (List.map_id entries)
  intro entry _
  by_cases here : entry.address = address
  · simp only [Function.comp, if_pos here, Nat.add_sub_cancel, id]
  · simp only [Function.comp, if_neg here, id]

private theorem retain_recount_succ (store : Store β) (address : Address) (copied : List Address) :
    (store.recount address (· + 1)).retain copied =
      (store.retain copied).recount address (· + 1) := by
  induction copied generalizing store with
  | nil => rfl
  | cons head copied ih => rw [retain_cons, recount_succ_comm, ih, retain_cons]

end Counts

/-! ## Counted stores -/

variable {β : Type} [Holder β] {store : Store β} {roots : List Address} {address : Address}
  {entry : Entry β}

structure Counted (roots : List Address) (store : Store β) : Prop where
  distinct : store.addresses.Nodup
  holders : ∀ entry ∈ store.entries, entry.holders = (roots ++ store.handles).count entry.address
  live : ∀ address, address ∈ store.addresses ↔ address ∈ roots ++ store.handles

theorem Counted.perm {others : List Address} (counted : store.Counted roots)
    (same : roots.Perm others) : store.Counted others where
  distinct := counted.distinct
  holders := by
    intro entry member
    rw [counted.holders entry member]
    exact (same.append_right store.handles).count_eq entry.address
  live := by
    intro address
    rw [counted.live address]
    exact (same.append_right store.handles).mem_iff

theorem Counted.mem_addresses (counted : store.Counted roots) (root : address ∈ roots) :
    address ∈ store.addresses :=
  (counted.live address).mpr (List.mem_append_left _ root)

theorem Counted.holders_pos (counted : store.Counted roots) (member : entry ∈ store.entries) :
    0 < entry.holders := by
  rw [counted.holders entry member, List.count_pos_iff, ← counted.live]
  exact List.mem_map_of_mem member

/-! ## One handle more or less -/

theorem Counted.recount_succ (counted : store.Counted roots) (live : address ∈ store.addresses) :
    (store.recount address (· + 1)).Counted (address :: roots) where
  distinct := by
    rw [addresses_recount]
    exact counted.distinct
  holders := by
    intro entry member
    obtain ⟨before, inside, sameAddress, recounted⟩ := mem_entries_recount member
    rw [recounted, sameAddress, handles_recount, List.cons_append, List.count_cons,
      counted.holders before inside]
    by_cases here : before.address = address
    · simp [here]
    · simp [here, Ne.symm here]
  live := by
    intro candidate
    rw [addresses_recount, handles_recount, List.cons_append, List.mem_cons, counted.live]
    constructor
    · exact .inr
    · intro cases
      rcases cases with rfl | known
      · exact (counted.live _).mp live
      · exact known

theorem Counted.recount_pred (counted : store.Counted (address :: roots))
    (found : store.find? address = some entry) (several : ¬ entry.holders ≤ 1) :
    (store.recount address (· - 1)).Counted roots where
  distinct := by
    rw [addresses_recount]
    exact counted.distinct
  holders := by
    intro candidate member
    obtain ⟨before, inside, sameAddress, recounted⟩ := mem_entries_recount member
    rw [recounted, sameAddress, handles_recount, counted.holders before inside, List.cons_append,
      List.count_cons]
    by_cases here : before.address = address
    · simp [here]
    · simp [here, Ne.symm here]
  live := by
    intro candidate
    rw [addresses_recount, handles_recount, counted.live, List.cons_append, List.mem_cons]
    constructor
    · intro cases
      rcases cases with rfl | known
      · have total := counted.holders entry (mem_of_find? found)
        rw [address_of_find? found, List.cons_append, List.count_cons_self] at total
        exact List.count_pos_iff.mp (by omega)
      · exact known
    · exact .inr

private theorem handles_perm_erase (found : store.find? address = some entry) :
    store.handles.Perm (Holder.handles entry.block ++ (store.erase address).handles) := by
  have shrunk := (entries_perm_erase found).flatMap_right fun entry : Entry β =>
    Holder.handles entry.block
  rwa [List.flatMap_cons] at shrunk

/-- A block that loses its last handle leaves its own handles to whoever erases it. -/
theorem Counted.erase_last (counted : store.Counted (address :: roots))
    (found : store.find? address = some entry) (last : entry.holders ≤ 1) :
    (store.erase address).Counted (Holder.handles entry.block ++ roots) := by
  have addresses := addresses_perm_erase found
  obtain ⟨gone, distinct⟩ := nodup_erase counted.distinct found
  have handles : (address :: roots ++ store.handles).Perm
      (address :: (Holder.handles entry.block ++ roots ++ (store.erase address).handles)) := by
    refine List.Perm.cons address ?_
    have moved := (handles_perm_erase found).append_left roots
    refine moved.trans ?_
    rw [← List.append_assoc]
    exact List.perm_append_comm.append_right _
  -- The handle that goes was the only one left.
  have unheld : address ∉ Holder.handles entry.block ++ roots ++ (store.erase address).handles := by
    have total := counted.holders entry (mem_of_find? found)
    rw [address_of_find? found, handles.count_eq, List.count_cons_self] at total
    exact List.count_eq_zero.mp (by omega)
  refine ⟨distinct, ?_, ?_⟩
  · intro candidate member
    have different := address_ne_of_mem_erase counted.distinct found member
    have kept : candidate ∈ store.entries :=
      (entries_perm_erase found).mem_iff.mpr (List.mem_cons_of_mem _ member)
    rw [counted.holders candidate kept, handles.count_eq, List.count_cons_of_ne different.symm]
  · intro candidate
    constructor
    · intro member
      have known := (counted.live candidate).mp (addresses.mem_iff.mpr (List.mem_cons_of_mem _ member))
      rcases List.mem_cons.mp (handles.mem_iff.mp known) with rfl | known
      · exact absurd member gone
      · exact known
    · intro known
      have member := (counted.live candidate).mpr (handles.mem_iff.mpr (List.mem_cons_of_mem _ known))
      rcases List.mem_cons.mp (addresses.mem_iff.mp member) with rfl | member
      · exact absurd known unheld
      · exact member

/-! ## Copies and drops -/

theorem release_cons_of_none {rest : List Address} (missing : store.find? address = none) :
    store.release (address :: rest) = store.release rest := by
  rw [release]
  split
  · rfl
  · next found => rw [missing] at found; cases found

theorem release_cons_of_last {rest : List Address} (found : store.find? address = some entry)
    (last : entry.holders ≤ 1) :
    store.release (address :: rest) =
      (store.erase address).release (Holder.handles entry.block ++ rest) := by
  rw [release]
  split
  · next missing => rw [found] at missing; cases missing
  · next other same =>
      rw [found] at same
      cases same
      rw [if_pos last]

theorem release_cons_of_several {rest : List Address} (found : store.find? address = some entry)
    (several : ¬ entry.holders ≤ 1) :
    store.release (address :: rest) = (store.recount address (· - 1)).release rest := by
  rw [release]
  split
  · next missing => rw [found] at missing; cases missing
  · next other same =>
      rw [found] at same
      cases same
      rw [if_neg several]

/-- Dropping handles keeps the count: what the dropped handles held alone goes with them. -/
theorem Counted.release {dropped : List Address} (counted : store.Counted (dropped ++ roots)) :
    (store.release dropped).Counted roots := by
  fun_induction Store.release store dropped with
  | case1 => exact counted
  | case2 store address rest missing ih =>
      have live := counted.mem_addresses (List.mem_append_left _ List.mem_cons_self)
      exact absurd live (find?_eq_none_iff.mp missing)
  | case3 store address rest entry found last ih =>
      rw [List.cons_append] at counted
      have erased := counted.erase_last found last
      rw [← List.append_assoc] at erased
      exact ih erased
  | case4 store address rest entry found several ih => exact ih (counted.recount_pred found several)

theorem Counted.retain {copied : List Address} (counted : store.Counted roots)
    (live : ∀ address ∈ copied, address ∈ store.addresses) :
    (store.retain copied).Counted (copied ++ roots) := by
  induction copied generalizing store roots with
  | nil => exact counted
  | cons head copied ih =>
      have one := counted.recount_succ (live head List.mem_cons_self)
      have all : ((store.recount head (· + 1)).retain copied).Counted (copied ++ head :: roots) := by
        refine ih one ?_
        intro address member
        rw [addresses_recount]
        exact live address (List.mem_cons_of_mem _ member)
      exact all.perm List.perm_middle

/-- Copying live handles and dropping the copies leaves the store as it was. -/
theorem Counted.release_retain {copied : List Address} (counted : store.Counted roots)
    (live : ∀ address ∈ copied, address ∈ store.addresses) :
    (store.retain copied).release copied = store := by
  induction copied with
  | nil => simp [Store.retain, Store.release]
  | cons head copied ih =>
      have others : ∀ address ∈ copied, address ∈ store.addresses := by
        intro address member
        exact live address (List.mem_cons_of_mem _ member)
      have known : head ∈ (store.retain copied).addresses := by
        rw [addresses_retain]
        exact live head List.mem_cons_self
      obtain ⟨entry, found⟩ := mem_addresses_iff.mp known
      have held := (counted.retain others).holders_pos (mem_of_find? found)
      have recounted : ((store.retain copied).recount head (· + 1)).find? head =
          some { entry with holders := entry.holders + 1 } := by
        rw [find?_recount, found, Option.map_some, if_pos (address_of_find? found)]
      rw [retain_cons, retain_recount_succ, release_cons_of_several recounted (by simp only; omega),
        recount_pred_succ, ih others]

/-! ## Writes and new blocks -/

private theorem handles_perm_write (distinct : store.addresses.Nodup)
    (found : store.find? address = some entry) (block : β) :
    (store.write address block).handles.Perm
      (Holder.handles block ++ (store.erase address).handles) := by
  have others : (store.erase address).entries.map (fun entry =>
      if entry.address = address then { entry with block } else entry) =
        (store.erase address).entries := by
    refine (List.map_congr_left ?_).trans (List.map_id _)
    intro other member
    rw [if_neg (address_ne_of_mem_erase distinct found member), id]
  have written := ((entries_perm_erase found).map fun entry =>
    if entry.address = address then { entry with block } else entry).flatMap_right
      fun entry : Entry β => Holder.handles entry.block
  rwa [List.map_cons, others, if_pos (address_of_find? found), List.flatMap_cons] at written

/-- Writing a block takes handles into the store and gives others back: together with the handles
given back, those of the new block are those of the old one and the ones taken in. -/
theorem Counted.write {before block : β} {taken given : List Address}
    (counted : store.Counted (taken ++ roots)) (found : store.block? address = some before)
    (exchanged : (Holder.handles block ++ given).Perm (Holder.handles before ++ taken)) :
    (store.write address block).Counted (given ++ roots) := by
  obtain ⟨entry, entryFound, rfl⟩ := Option.map_eq_some_iff.mp found
  have kept : (taken ++ roots ++ store.handles).Perm
      (given ++ roots ++ (store.write address block).handles) := by
    apply List.perm_iff_count.mpr
    intro candidate
    have old := (handles_perm_erase entryFound).count_eq candidate
    have new := (handles_perm_write counted.distinct entryFound block).count_eq candidate
    have both := exchanged.count_eq candidate
    simp only [List.count_append] at old new both ⊢
    omega
  refine ⟨?_, ?_, ?_⟩
  · rw [addresses_write]
    exact counted.distinct
  · intro candidate member
    obtain ⟨original, inside, rfl⟩ := List.mem_map.mp member
    have same := counted.holders original inside
    rw [kept.count_eq] at same
    split <;> exact same
  · intro candidate
    rw [addresses_write, counted.live]
    exact kept.mem_iff

/-- A new block takes over the handles that go into it, and there is one handle to it. -/
theorem Counted.allocate {block : β} (counted : store.Counted (Holder.handles block ++ roots))
    (allocator : Allocator) :
    (store.allocate allocator block).2.Counted ((store.allocate allocator block).1 :: roots) := by
  have fresh := allocator.fresh store.addresses
  have unheld : allocator.pick store.addresses ∉ Holder.handles block ++ roots ++ store.handles := by
    intro member
    exact fresh ((counted.live _).mpr member)
  have moved : (roots ++ (Holder.handles block ++ store.handles)).Perm
      (Holder.handles block ++ roots ++ store.handles) := by
    rw [← List.append_assoc]
    exact List.perm_append_comm.append_right _
  have handles : (store.allocate allocator block).2.handles =
      Holder.handles block ++ store.handles := rfl
  refine ⟨List.nodup_cons.mpr ⟨fresh, counted.distinct⟩, ?_, ?_⟩
  · intro entry member
    rw [handles, List.cons_append]
    rcases List.mem_cons.mp member with rfl | old
    · rw [Store.allocate, List.count_cons_self, moved.count_eq, List.count_eq_zero.mpr unheld]
    · have different : allocator.pick store.addresses ≠ entry.address := by
        intro same
        exact fresh (same ▸ List.mem_map_of_mem old)
      rw [Store.allocate, List.count_cons_of_ne different, moved.count_eq, counted.holders entry old]
  · intro candidate
    rw [handles, List.cons_append, List.mem_cons, moved.mem_iff, ← counted.live]
    exact List.mem_cons

/-! ## Items of a buffer -/

theorem handles_perm_set {items : List Item} {index : Nat} {previous : Item}
    (stored : items[index]? = some previous) (item : Item) :
    ((Block.buffer (items.set index item)).handles ++ previous.handles).Perm
      ((Block.buffer items).handles ++ item.handles) := by
  obtain ⟨inside, same⟩ := List.getElem?_eq_some_iff.mp stored
  have divided : items = items.take index ++ previous :: items.drop (index + 1) := by
    rw [← same, List.getElem_cons_drop, List.take_append_drop]
  have changed : items.set index item = items.take index ++ item :: items.drop (index + 1) := by
    rw [List.set_eq_take_append_cons_drop, if_pos inside]
  apply List.perm_iff_count.mpr
  intro candidate
  have before := congrArg (fun items => ((Block.buffer items).handles).count candidate) divided
  simp only [Block.handles, changed, List.flatMap_append, List.flatMap_cons,
    List.count_append] at before ⊢
  omega

theorem handles_perm_append (items : List Item) (item : Item) :
    ((Block.buffer (items ++ [item])).handles ++ []).Perm
      ((Block.buffer items).handles ++ item.handles) := by
  simp [Block.handles]

theorem handles_perm_dropLast {items : List Item} {item : Item}
    (last : items.getLast? = some item) :
    ((Block.buffer items.dropLast).handles ++ item.handles).Perm
      ((Block.buffer items).handles ++ []) := by
  obtain ⟨leading, divided⟩ := List.getLast?_eq_some_iff.mp last
  simp [divided, Block.handles]

end Store

end LooseValue
