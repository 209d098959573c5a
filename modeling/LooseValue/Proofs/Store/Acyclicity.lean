import LooseValue.Proofs.Store.Frame
import LooseValue.Proofs.Store.Growth

/-!
# Cycles and what can close them

New blocks hold handles to blocks that were there before them, so that a store which only grows
stays acyclic. A write is the one way to close a cycle, and such a cycle passes the block that was
written: as long as that block cannot be reached from its own new content, there is none.
-/

set_option autoImplicit false

namespace LooseValue

namespace Store

variable {before after store : Store} {handles : List Address} {address lower : Address}
  {block : Block} {allocator : Allocator}

theorem acyclic_empty : empty.Acyclic := by
  rintro address ⟨block, found, _⟩
  cases found

/-! ## New blocks -/

/-- From blocks that were there before a new one only such blocks can be reached. -/
theorem reaches_of_allocate (closed : ∀ handle ∈ store.handles, handle ∈ store.addresses)
    (live : ∀ handle ∈ handles, handle ∈ store.addresses)
    (reached : (store.allocate allocator block).2.Reaches handles lower) :
    store.Reaches handles lower ∧ lower ∈ store.addresses := by
  induction reached with
  | handle member => exact ⟨.handle member, live _ member⟩
  | @inside holder lower _ points ih =>
      obtain ⟨reached, known⟩ := ih
      obtain ⟨stored, found, inside⟩ := points
      have old : holder ≠ (store.allocate allocator block).1 := by
        rintro rfl
        exact allocator.fresh store.addresses known
      rw [block?_allocate_of_ne old] at found
      have points : store.Points holder lower := ⟨stored, found, inside⟩
      exact ⟨.inside reached points, closed lower points.mem_handles⟩

theorem Acyclic.allocate (acyclic : store.Acyclic)
    (closed : ∀ handle ∈ store.handles, handle ∈ store.addresses)
    (live : ∀ handle ∈ block.handles, handle ∈ store.addresses) (allocator : Allocator) :
    (store.allocate allocator block).2.Acyclic := by
  rintro upper ⟨stored, found, reached⟩
  by_cases new : upper = (store.allocate allocator block).1
  · subst new
    rw [block?_allocate_self] at found
    cases found
    exact allocator.fresh store.addresses (reaches_of_allocate closed live reached).2
  · rw [block?_allocate_of_ne new] at found
    have known : ∀ handle ∈ stored.handles, handle ∈ store.addresses :=
      fun handle inside => closed handle (mem_handles_of_block? found inside)
    exact acyclic upper ⟨stored, found, (reaches_of_allocate closed known reached).1⟩

/-- A store that grows by copies and new blocks stays acyclic. -/
theorem Grown.acyclic (growth : before.Grown after) (acyclic : before.Acyclic)
    (closed : ∀ handle ∈ before.handles, handle ∈ before.addresses) : after.Acyclic := by
  induction growth with
  | refl => exact acyclic
  | retain copied _ ih =>
      refine ih.of_block? ?_
      intro address block found
      rwa [block?_retain] at found
  | allocate allocator growth live ih => exact ih.allocate (growth.closed closed) live allocator

/-! ## Written blocks -/

theorem block?_of_write_self {stored : Block}
    (found : (store.write address block).block? address = some stored) : stored = block := by
  cases previous : store.block? address with
  | none =>
      have missing := mem_addresses_of_block? found
      rw [addresses_write] at missing
      obtain ⟨own, present⟩ := exists_block?_of_mem missing
      rw [previous] at present
      cases present
  | some own =>
      rw [block?_write_self previous] at found
      exact (Option.some.inj found).symm

/-- A way that was not there before the write leads through the written block. -/
theorem reaches_of_write (reached : (store.write address block).Reaches handles lower) :
    store.Reaches handles lower ∨
      (store.write address block).Reaches handles address ∧
        (store.write address block).Reaches block.handles lower := by
  induction reached with
  | handle member => exact .inl (.handle member)
  | @inside holder lower reached points ih =>
      obtain ⟨stored, found, inside⟩ := points
      by_cases here : holder = address
      · subst here
        cases block?_of_write_self found
        exact .inr ⟨reached, .handle inside⟩
      · rcases ih with old | ⟨through, further⟩
        · rw [block?_write_of_ne here] at found
          exact .inl (.inside old ⟨stored, found, inside⟩)
        · exact .inr ⟨through, .inside further ⟨stored, found, inside⟩⟩

/-- A write closes no cycle unless the written block is on one. -/
theorem Acyclic.write {previous : Block} (acyclic : store.Acyclic)
    (present : store.block? address = some previous)
    (apart : ¬ (store.write address block).Above address address) :
    (store.write address block).Acyclic := by
  rintro upper ⟨stored, found, reached⟩
  by_cases here : upper = address
  · subst here
    exact apart ⟨stored, found, reached⟩
  · rcases reaches_of_write reached with old | ⟨through, back⟩
    · rw [block?_write_of_ne here] at found
      exact acyclic upper ⟨stored, found, old⟩
    · -- From the written block around the cycle and back to it.
      refine apart ⟨block, block?_write_self present block, through.trans ?_⟩
      exact fun handle inside => .inside back ⟨stored, found, inside⟩

end Store

end LooseValue
