import LooseValue.Proofs.Store.Reachability

/-!
# What a release gives up

Dropping handles makes some blocks go away, and with each of them the handles inside it. Nothing
else is given up: the holders of a block become fewer by the handles to it that were dropped and by
those inside the blocks that went away, and blocks that stay keep their content.
-/

set_option autoImplicit false

namespace LooseValue

namespace Store

/-- The live blocks with their addresses, their holders aside. -/
def contents (store : Store) : List (Address × Block) :=
  store.entries.map fun entry => (entry.address, entry.block)

/-- The handles inside the blocks of one store that another one no longer has. -/
def lost (before after : Store) : List Address :=
  (before.contents.filter fun stored => stored.1 ∉ after.addresses).flatMap fun stored =>
    stored.2.handles

/-- The given handles were dropped, and with them the blocks that nothing else held. -/
structure GivesUp (given : List Address) (before after : Store) : Prop where
  holders : ∀ address,
    after.holders address + given.count address + (before.lost after).count address =
      before.holders address
  survivors : ∀ address block,
    after.block? address = some block → before.block? address = some block

variable {store before after : Store} {roots : List Address}

theorem handles_eq_flatMap_contents (store : Store) :
    store.handles = store.contents.flatMap fun stored => stored.2.handles := by
  rw [handles, contents, List.flatMap_map]
  rfl

private theorem mem_contents_iff (distinct : store.addresses.Nodup) {stored : Address × Block} :
    stored ∈ store.contents ↔ store.block? stored.1 = some stored.2 := by
  obtain ⟨address, block⟩ := stored
  constructor
  · intro member
    obtain ⟨entry, inside, same⟩ := List.mem_map.mp member
    cases same
    rw [block?, find?_of_mem distinct inside, Option.map_some]
  · intro found
    obtain ⟨entry, entryFound, rfl⟩ := Option.map_eq_some_iff.mp found
    refine List.mem_map.mpr ⟨entry, mem_of_find? entryFound, ?_⟩
    rw [address_of_find? entryFound]

private theorem nodup_contents (distinct : store.addresses.Nodup) : store.contents.Nodup := by
  refine List.Nodup.of_map Prod.fst ?_
  rw [contents, List.map_map]
  exact distinct

/-- The blocks of the later store are those of the earlier one that still have an address. -/
theorem contents_perm (distinct : before.addresses.Nodup) (remaining : after.addresses.Nodup)
    (survivors : ∀ address block,
      after.block? address = some block → before.block? address = some block) :
    (before.contents.filter fun stored => stored.1 ∈ after.addresses).Perm after.contents := by
  apply (List.perm_ext_iff_of_nodup ((nodup_contents distinct).filter _)
    (nodup_contents remaining)).mpr
  intro stored
  simp only [List.mem_filter, mem_contents_iff distinct, mem_contents_iff remaining,
    decide_eq_true_eq]
  constructor
  · rintro ⟨found, alive⟩
    obtain ⟨block, kept⟩ := exists_block?_of_mem alive
    rw [survivors _ _ kept] at found
    rw [kept, found]
  · intro kept
    exact ⟨survivors _ _ kept, mem_addresses_of_block? kept⟩

private theorem handles_perm_lost (distinct : before.addresses.Nodup)
    (remaining : after.addresses.Nodup)
    (survivors : ∀ address block,
      after.block? address = some block → before.block? address = some block) :
    before.handles.Perm (after.handles ++ before.lost after) := by
  -- A block has an address in the later store or it has not, which divides the earlier contents.
  have divided := (List.filter_append_perm (fun stored : Address × Block =>
    decide (stored.1 ∈ after.addresses)) before.contents).symm
  have gone : (before.contents.filter fun stored => !decide (stored.1 ∈ after.addresses)) =
      before.contents.filter fun stored => stored.1 ∉ after.addresses := by
    simp only [decide_not]
  rw [gone] at divided
  have kept := (contents_perm distinct remaining survivors).append_right
    (before.contents.filter fun stored => stored.1 ∉ after.addresses)
  rw [handles_eq_flatMap_contents before, handles_eq_flatMap_contents after, lost,
    ← List.flatMap_append]
  exact (divided.trans kept).flatMap_right _

/-- The holders of a block are the handles to it, and an address without a block has none. -/
theorem Counted.holders_eq (counted : store.Counted roots) (address : Address) :
    store.holders address = (roots ++ store.handles).count address := by
  unfold Store.holders
  cases found : store.find? address with
  | none =>
      have dead := find?_eq_none_iff.mp found
      rw [counted.live] at dead
      exact (List.count_eq_zero.mpr dead).symm
  | some entry =>
      rw [← address_of_find? found]
      exact counted.holders entry (mem_of_find? found)

theorem Counted.givesUp {dropped : List Address} (counted : store.Counted (dropped ++ roots)) :
    store.GivesUp dropped (store.release dropped) := by
  have released := counted.release
  have survivors : ∀ address block, (store.release dropped).block? address = some block →
      store.block? address = some block :=
    fun _ _ survives => block?_of_block?_release counted.distinct survives
  refine ⟨?_, survivors⟩
  intro address
  have divided := (handles_perm_lost counted.distinct released.distinct survivors).count_eq address
  rw [released.holders_eq, counted.holders_eq]
  simp only [List.count_append] at divided ⊢
  omega

end Store

end LooseValue
