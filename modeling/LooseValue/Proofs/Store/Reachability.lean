import Mathlib.Data.Fintype.EquivFin
import LooseValue.Proofs.Store.Counting

/-!
# Reachability

From some handles all the blocks can be reached that they lead to, that the handles inside these
blocks lead to, and so on. A store is acyclic if no block can be reached from its own content.

In a counted store everything that can be reached from a root is live. The converse holds if the
store is acyclic: a live block that no root leads to has a holder among the live blocks, which has
one again, and in a finite store such a chain would have to return to itself.
-/

set_option autoImplicit false

namespace LooseValue

namespace Store

inductive Reaches (store : Store) (handles : List Address) : Address → Prop where
  | handle {address : Address} : address ∈ handles → Reaches store handles address
  | inside {holder address : Address} : Reaches store handles holder → store.Points holder address →
      Reaches store handles address

/-- The second address can be reached from the content of the block at the first. -/
def Above (store : Store) (upper lower : Address) : Prop :=
  ∃ block, store.block? upper = some block ∧ store.Reaches block.handles lower

/-- No block whatever can be reached from its own content. -/
def Acyclic (store : Store) : Prop := ∀ address, ¬ store.Above address address

variable {store other : Store} {roots handles : List Address} {address lower : Address}
  {block : Block}

theorem Reaches.trans {further : List Address} (reached : store.Reaches further address)
    (between : ∀ handle ∈ further, store.Reaches handles handle) : store.Reaches handles address := by
  induction reached with
  | handle member => exact between _ member
  | inside _ points ih => exact .inside ih points

theorem not_reaches_nil : ¬ store.Reaches [] address := by
  intro reached
  induction reached with
  | handle member => exact List.not_mem_nil member
  | inside _ _ ih => exact ih

theorem Above.of_points (points : store.Points address lower) : store.Above address lower := by
  obtain ⟨block, found, inside⟩ := points
  exact ⟨block, found, .handle inside⟩

theorem Above.trans {upper : Address} (one : store.Above upper address)
    (two : store.Above address lower) : store.Above upper lower := by
  obtain ⟨block, found, reached⟩ := one
  obtain ⟨next, nextFound, further⟩ := two
  exact ⟨block, found, further.trans fun _ inside => .inside reached ⟨next, nextFound, inside⟩⟩

/-! ## Stores with less in them -/

theorem Reaches.of_block? (kept : ∀ address block,
    other.block? address = some block → store.block? address = some block)
    (reached : other.Reaches handles address) : store.Reaches handles address := by
  induction reached with
  | handle member => exact .handle member
  | inside _ points ih =>
      obtain ⟨block, found, inside⟩ := points
      exact .inside ih ⟨block, kept _ _ found, inside⟩

/-- Taking blocks away closes no cycle. -/
theorem Acyclic.of_block? (acyclic : store.Acyclic) (kept : ∀ address block,
    other.block? address = some block → store.block? address = some block) : other.Acyclic := by
  rintro address ⟨block, found, reached⟩
  exact acyclic address ⟨block, kept _ _ found, reached.of_block? kept⟩

theorem exists_entry_of_block? (found : store.block? address = some block) :
    ∃ entry ∈ store.entries, entry.address = address ∧ entry.block = block := by
  obtain ⟨entry, entryFound, same⟩ := Option.map_eq_some_iff.mp found
  exact ⟨entry, mem_of_find? entryFound, address_of_find? entryFound, same⟩

/-- What holds of all handles at the start and is passed on by every block holds of all that can be
reached. -/
theorem Reaches.passes {P : Address → Prop} (start : ∀ handle ∈ handles, P handle)
    (passed : ∀ entry ∈ store.entries, P entry.address → ∀ handle ∈ entry.block.handles, P handle)
    (reached : store.Reaches handles address) : P address := by
  induction reached with
  | handle member => exact start _ member
  | inside _ points ih =>
      obtain ⟨block, found, inside⟩ := points
      obtain ⟨entry, member, rfl, rfl⟩ := exists_entry_of_block? found
      exact passed entry member ih _ inside

/-- Handles that only lead to lower addresses close no cycle. -/
theorem acyclic_of_descending
    (descending : ∀ entry ∈ store.entries, ∀ handle ∈ entry.block.handles, handle < entry.address) :
    store.Acyclic := by
  rintro address ⟨block, found, reached⟩
  obtain ⟨entry, member, rfl, rfl⟩ := exists_entry_of_block? found
  have lower : entry.address < entry.address := by
    refine Reaches.passes (P := (· < entry.address)) (descending entry member) ?_ reached
    intro other otherMember below handle inside
    exact Nat.lt_trans (descending other otherMember handle inside) below
  exact Nat.lt_irrefl _ lower

/-! ## Live blocks -/

private theorem exists_points (distinct : store.addresses.Nodup) (held : address ∈ store.handles) :
    ∃ holder ∈ store.addresses, store.Points holder address := by
  obtain ⟨entry, member, inside⟩ := List.mem_flatMap.mp held
  refine ⟨entry.address, List.mem_map_of_mem member, entry.block, ?_, inside⟩
  rw [block?, find?_of_mem distinct member, Option.map_some]

theorem Counted.mem_addresses_of_points (counted : store.Counted roots)
    (points : store.Points address lower) : lower ∈ store.addresses :=
  (counted.live lower).mpr (List.mem_append_right _ points.mem_handles)

/-- Whatever can be reached from live blocks is live. -/
theorem Counted.mem_addresses_of_reaches (counted : store.Counted roots)
    (live : ∀ handle ∈ handles, handle ∈ store.addresses) (reached : store.Reaches handles address) :
    address ∈ store.addresses := by
  induction reached with
  | handle member => exact live _ member
  | inside _ points _ => exact counted.mem_addresses_of_points points

/-- A counted store that is part of another one has all that its roots lead to there. -/
theorem Counted.reaches_of_reaches (counted : store.Counted roots) (part : ∀ address block,
    store.block? address = some block → other.block? address = some block)
    (reached : other.Reaches roots address) : store.Reaches roots address := by
  induction reached with
  | handle member => exact .handle member
  | inside _ points ih =>
      have live := counted.mem_addresses_of_reaches (fun _ => counted.mem_addresses) ih
      obtain ⟨block, found⟩ := exists_block?_of_mem live
      obtain ⟨own, ownFound, inside⟩ := points
      cases (part _ _ found).symm.trans ownFound
      exact .inside ih ⟨block, found, inside⟩

private theorem Acyclic.wellFounded (acyclic : store.Acyclic) :
    WellFounded fun upper lower : { address // address ∈ store.addresses } =>
      store.Above upper lower := by
  have transitive : IsTrans { address // address ∈ store.addresses } fun upper lower =>
      store.Above upper lower := ⟨fun _ _ _ one two => one.trans two⟩
  have irreflexive : Std.Irrefl fun upper lower : { address // address ∈ store.addresses } =>
      store.Above upper lower := ⟨fun address => acyclic address⟩
  exact Finite.wellFounded_of_trans_of_irrefl _

/-- In an acyclic store exactly those blocks are live that can be reached from a root. -/
theorem Counted.mem_addresses_iff_reaches (counted : store.Counted roots)
    (acyclic : store.Acyclic) : address ∈ store.addresses ↔ store.Reaches roots address := by
  constructor
  · intro live
    -- Induction from holders to what they hold: a chain of holders ends at a root.
    have rooted := acyclic.wellFounded.induction
      (C := fun address => store.Reaches roots address.val) ⟨address, live⟩
    refine rooted ?_
    rintro ⟨address, live⟩ ih
    rcases List.mem_append.mp ((counted.live address).mp live) with root | held
    · exact .handle root
    · obtain ⟨holder, alive, points⟩ := exists_points counted.distinct held
      exact .inside (ih ⟨holder, alive⟩ (.of_points points)) points
  · exact counted.mem_addresses_of_reaches fun _ => counted.mem_addresses

/-- Without roots nothing stays live in an acyclic store. -/
theorem Counted.eq_empty (counted : store.Counted []) (acyclic : store.Acyclic) :
    store = empty := by
  obtain ⟨entries⟩ := store
  cases entries with
  | nil => rfl
  | cons entry entries =>
      have live : entry.address ∈ (Store.mk (entry :: entries)).addresses := List.mem_cons_self
      exact absurd ((counted.mem_addresses_iff_reaches acyclic).mp live) not_reaches_nil

end Store

end LooseValue
