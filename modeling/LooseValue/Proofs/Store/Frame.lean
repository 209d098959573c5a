import LooseValue.Proofs.Store.Trees

/-!
# Frames

A step first makes new blocks, then overwrites at most one, and releases handles in the end. The
first leaves every block as it is, the last takes blocks away, so that between the store before and
the store after no block that both have is changed, save the one that was overwritten. What can be
reached from a root that both stores have is live in both, and looks the same in both unless the
overwritten block is among it.
-/

set_option autoImplicit false

namespace LooseValue

namespace Store

section Blocks

variable {β : Type} {before built after store : Store β} {address : Address}

/-- Every block of the first store is one of the second. -/
def Keeps (before after : Store β) : Prop :=
  ∀ address block, before.block? address = some block → after.block? address = some block

/-- A block that both stores have is the same in both unless it is one of the `changed`. -/
def Frame (changed : Address → Prop) (before after : Store β) : Prop :=
  ∀ address, ¬ changed address → ∀ block later, before.block? address = some block →
    after.block? address = some later → later = block

theorem Keeps.refl (store : Store β) : store.Keeps store := fun _ _ found => found

theorem Keeps.trans (one : before.Keeps built) (two : built.Keeps after) : before.Keeps after :=
  fun address block found => two address block (one address block found)

theorem keeps_retain (store : Store β) (copied : List Address) :
    store.Keeps (store.retain copied) := by
  intro address block found
  rwa [block?_retain]

theorem keeps_allocate (store : Store β) (allocator : Allocator) (block : β) :
    store.Keeps (store.allocate allocator block).2 := by
  intro address own found
  rw [block?_allocate_of_ne, found]
  rintro rfl
  exact allocator.fresh _ (mem_addresses_of_block? found)

/-! ## Writes and releases after building -/

variable [Holder β] {block : β}

theorem Keeps.frame_release (keeps : before.Keeps built) (distinct : built.addresses.Nodup)
    (dropped : List Address) : before.Frame (fun _ => False) (built.release dropped) := by
  intro address _ block later found survives
  have kept := keeps _ _ found
  rw [block?_of_block?_release distinct survives] at kept
  exact Option.some.inj kept

theorem Keeps.frame_write_release (keeps : before.Keeps built) (distinct : built.addresses.Nodup)
    (dropped : List Address) :
    before.Frame (· = address) ((built.write address block).release dropped) := by
  intro other different previous later found survives
  rw [← addresses_write] at distinct
  have kept := block?_of_block?_release distinct survives
  rw [block?_write_of_ne different, keeps _ _ found] at kept
  exact (Option.some.inj kept).symm

theorem block?_of_write_release {previous : β} {dropped : List Address}
    (found : store.block? address = some previous) (distinct : store.addresses.Nodup)
    (live : address ∈ ((store.write address block).release dropped).addresses) :
    ((store.write address block).release dropped).block? address = some block := by
  obtain ⟨later, survives⟩ := exists_block?_of_mem live
  rw [← addresses_write] at distinct
  have written := block?_of_block?_release distinct survives
  rw [block?_write_self found] at written
  rw [survives, written]

end Blocks

variable {before after : Store} {address : Address} {block : Block} {changed : Address → Prop}

theorem Keeps.items (keeps : before.Keeps after) (found : before.block? address = some block) :
    after.items address = before.items address := by
  rw [items_eq, items_eq, found, keeps _ _ found]

/-! ## What handles lead to -/

/-- Along a path that meets no changed block both stores go the same way. -/
theorem Frame.agreesFrom_of_live {roots later handles : List Address}
    (frame : before.Frame changed after) (counted : before.Counted roots)
    (laterCounted : after.Counted later) (rooted : ∀ handle ∈ handles, handle ∈ before.addresses)
    (stillRooted : ∀ handle ∈ handles, handle ∈ after.addresses)
    (untouched : ∀ address, before.Reaches handles address → ¬ changed address) :
    before.AgreesFrom handles after ∧
      ∀ address, before.Reaches handles address → address ∈ after.addresses := by
  have same : ∀ address, before.Reaches handles address → address ∈ before.addresses →
      address ∈ after.addresses → after.block? address = before.block? address := by
    intro address reached live alive
    obtain ⟨block, found⟩ := exists_block?_of_mem live
    obtain ⟨kept, survives⟩ := exists_block?_of_mem alive
    rw [found, survives, frame address (untouched address reached) block kept found survives]
  have live : ∀ address, before.Reaches handles address → address ∈ before.addresses := by
    intro address
    exact counted.mem_addresses_of_reaches rooted
  have alive : ∀ address, before.Reaches handles address → address ∈ after.addresses := by
    intro address reached
    -- A holder that is live in both stores has its old handles, which keep the next block live.
    induction reached with
    | handle member => exact stillRooted _ member
    | @inside holder address reached points ih =>
        obtain ⟨block, found, inside⟩ := points
        have kept := same holder reached (live holder reached) ih
        rw [found] at kept
        exact laterCounted.mem_addresses_of_points ⟨block, kept, inside⟩
  exact ⟨fun address reached => same address reached (live address reached) (alive address reached),
    alive⟩

theorem Frame.agreesFrom {roots later handles : List Address} (frame : before.Frame changed after)
    (counted : before.Counted roots) (laterCounted : after.Counted later)
    (held : ∀ handle ∈ handles, handle ∈ roots) (stillHeld : ∀ handle ∈ handles, handle ∈ later)
    (untouched : ∀ address, before.Reaches handles address → ¬ changed address) :
    before.AgreesFrom handles after ∧
      ∀ address, before.Reaches handles address → address ∈ after.addresses :=
  frame.agreesFrom_of_live counted laterCounted
    (fun handle member => counted.mem_addresses (held handle member))
    (fun handle member => laterCounted.mem_addresses (stillHeld handle member)) untouched

end Store

end LooseValue
