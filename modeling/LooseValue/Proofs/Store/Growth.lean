import Mathlib.Data.List.Flatten
import LooseValue.Proofs.Store.Release

/-!
# Growth of a store

Building copies handles and adds blocks, each of which holds handles to what was there before it.
Dropping all handles that were made on the way leads back to the store as it was. Nothing of the
earlier store can go away, since the handles that held it are still there; and of the added blocks
none can stay, since the one added last among those that stay would be without a holder.
-/

set_option autoImplicit false

namespace LooseValue

namespace Store

/-- The stores that copies and new blocks lead to. -/
inductive Grown (store : Store) : Store → Prop where
  | refl : Grown store store
  | retain {after : Store} (copied : List Address) : Grown store after →
      Grown store (after.retain copied)
  | allocate {after : Store} {block : Block} (allocator : Allocator) : Grown store after →
      (∀ handle ∈ block.handles, handle ∈ after.addresses) →
      Grown store (after.allocate allocator block).2

variable {before store after : Store} {roots : List Address} {address : Address} {block : Block}

theorem Grown.trans {middle : Store} (one : before.Grown middle) (two : middle.Grown after) :
    before.Grown after := by
  induction two with
  | refl => exact one
  | retain copied _ ih => exact .retain copied ih
  | allocate allocator _ live ih => exact .allocate allocator ih live

/-! ## Contents -/

theorem contents_recount (f : Nat → Nat) : (store.recount address f).contents = store.contents := by
  simp only [contents, recount, List.map_map]
  apply List.map_congr_left
  intro entry _
  simp only [Function.comp]
  split <;> rfl

private theorem contents_retain (copied : List Address) :
    (store.retain copied).contents = store.contents := by
  induction copied generalizing store with
  | nil => rfl
  | cons head copied ih => rw [retain_cons, ih, contents_recount]

private theorem contents_erase (store : Store) (address : Address) :
    (store.erase address).contents = store.contents.eraseP fun stored => stored.1 == address := by
  rw [contents, contents, erase, List.eraseP_map]
  rfl

private theorem addresses_eq_map_contents (store : Store) :
    store.addresses = store.contents.map Prod.fst := by
  rw [addresses, contents, List.map_map]
  rfl

private theorem handles_sublist (within : before.contents.Sublist store.contents) :
    before.handles.Sublist store.handles := by
  rw [handles_eq_flatMap_contents, handles_eq_flatMap_contents]
  exact within.flatMap _

theorem addresses_sublist (within : before.contents.Sublist store.contents) :
    before.addresses.Sublist store.addresses := by
  rw [addresses_eq_map_contents, addresses_eq_map_contents]
  exact within.map _

/-- Releasing takes blocks away and leaves the others in their order. -/
theorem contents_release_sublist (store : Store) (dropped : List Address) :
    (store.release dropped).contents.Sublist store.contents := by
  fun_induction Store.release store dropped with
  | case1 => exact .refl _
  | case2 store address rest missing ih => exact ih
  | case3 store address rest entry found last ih =>
      rw [contents_erase] at ih
      exact ih.trans List.eraseP_sublist
  | case4 store address rest entry found several ih => rwa [contents_recount] at ih

/-- The holders are determined by the roots and the contents. -/
theorem Counted.eq_of_contents (counted : before.Counted roots) (other : store.Counted roots)
    (same : before.contents = store.contents) : before = store := by
  have handles : before.handles = store.handles := by
    rw [handles_eq_flatMap_contents, handles_eq_flatMap_contents, same]
  have rebuilt : ∀ {store : Store}, store.Counted roots → store.entries =
      store.contents.map fun stored =>
        ⟨stored.1, (roots ++ store.handles).count stored.1, stored.2⟩ := by
    intro store counted
    rw [contents, List.map_map]
    refine (List.map_id store.entries).symm.trans (List.map_congr_left ?_)
    intro entry member
    simp only [Function.comp, ← counted.holders entry member, id]
  have entries : before.entries = store.entries := by
    rw [rebuilt counted, rebuilt other, same, handles]
  cases before
  cases store
  cases entries
  rfl

/-! ## Back to the earlier store -/

/-- A store that is counted without the dropped handles survives inside a store that is counted
with them: each of its blocks has a holder beside the one that is dropped. -/
theorem Counted.contents_sublist_release {dropped : List Address} (counted : before.Counted roots)
    (held : store.Counted (dropped ++ roots)) (within : before.contents.Sublist store.contents) :
    before.contents.Sublist (store.release dropped).contents := by
  fun_induction Store.release store dropped with
  | case1 => exact within
  | case2 store address rest missing ih =>
      have live := held.mem_addresses (List.mem_append_left _ List.mem_cons_self)
      exact absurd live (find?_eq_none_iff.mp missing)
  | case3 store address rest entry found last ih =>
      have absent : address ∉ before.addresses := by
        intro live
        have own : 0 < (roots ++ before.handles).count address :=
          List.count_pos_iff.mpr ((counted.live address).mp live)
        have kept := (handles_sublist within).count_le address
        have holders := held.holders entry (mem_of_find? found)
        rw [address_of_find? found] at holders
        simp only [List.cons_append, List.count_cons_self, List.count_append] at own holders
        omega
      have untouched : before.contents.eraseP (fun stored => stored.1 == address) =
          before.contents := by
        apply List.eraseP_of_forall_not
        intro stored member here
        have listed := List.mem_map_of_mem (f := Prod.fst) member
        rw [← addresses_eq_map_contents, beq_iff_eq.mp here] at listed
        exact absent listed
      have erased := held.erase_last found last
      refine ih (by rwa [List.append_assoc]) ?_
      rw [contents_erase, ← untouched]
      exact within.eraseP
  | case4 store address rest entry found several ih =>
      refine ih (held.recount_pred found several) ?_
      rwa [contents_recount]

namespace Grown

private theorem contents_sublist (grown : before.Grown after) :
    before.contents.Sublist after.contents := by
  induction grown with
  | refl => exact .refl _
  | retain copied _ ih => rwa [contents_retain]
  | allocate allocator _ _ ih => exact ih.cons _

theorem mem_addresses (grown : before.Grown after) (live : address ∈ before.addresses) :
    address ∈ after.addresses :=
  (addresses_sublist grown.contents_sublist).subset live

theorem closed (grown : before.Grown after)
    (closed : ∀ handle ∈ before.handles, handle ∈ before.addresses) :
    ∀ handle ∈ after.handles, handle ∈ after.addresses := by
  induction grown with
  | refl => exact closed
  | @retain after copied _ ih =>
      rw [addresses_retain, handles_eq_flatMap_contents, contents_retain,
        ← handles_eq_flatMap_contents]
      exact ih
  | @allocate after block allocator _ live ih =>
      intro handle inside
      rcases List.mem_append.mp inside with own | old
      · exact List.mem_cons_of_mem _ (live handle own)
      · exact List.mem_cons_of_mem _ (ih handle old)

/-- Nothing that was added stays without roots of its own. -/
theorem contents_eq (grown : before.Grown after) (counted : before.Counted roots)
    (rest : store.Counted roots) (within : store.contents.Sublist after.contents)
    (kept : before.contents.Sublist store.contents) : store.contents = before.contents := by
  induction grown with
  | refl => exact within.antisymm kept
  | retain copied _ ih =>
      rw [contents_retain] at within
      exact ih within
  | @allocate after block allocator grown live ih =>
      -- The block at the front is held by no root and by no block behind it.
      have absent : allocator.pick after.addresses ∉ store.addresses := by
        intro present
        apply allocator.fresh after.addresses
        rcases List.mem_append.mp ((rest.live _).mp present) with root | inside
        · exact grown.mem_addresses (counted.mem_addresses root)
        · rcases List.mem_append.mp ((handles_sublist within).subset inside) with own | old
          · exact live _ own
          · refine grown.closed ?_ _ old
            intro handle held
            exact (counted.live handle).mpr (List.mem_append_right _ held)
      rcases List.sublist_cons_iff.mp within with within | ⟨others, front, _⟩
      · exact ih within
      · rw [addresses_eq_map_contents, front] at absent
        exact absurd List.mem_cons_self absent

end Grown

/-- Dropping what was made leads back to the store in which nothing had been made. -/
theorem Counted.release_grown {made : List Address} (counted : before.Counted roots)
    (grown : before.Grown after) (held : after.Counted (made ++ roots)) :
    after.release made = before := by
  have kept := counted.contents_sublist_release held grown.contents_sublist
  have same := grown.contents_eq counted held.release (contents_release_sublist after made) kept
  exact held.release.eq_of_contents counted same

end Store

end LooseValue
