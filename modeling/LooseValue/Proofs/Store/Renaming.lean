import Mathlib.Logic.Embedding.Basic
import Mathlib.Logic.Equiv.Basic
import LooseValue.Proofs.Store.Counting
import LooseValue.Tree

/-!
# Renamed stores

A renaming gives addresses new names and keeps different ones apart. Every operation on a store
commutes with it: what the operation does to a renamed store is the renamed form of what it does to
the store itself, and trees, which show no address, are the same for both.

An allocation picks an address of its own in each of two stores. The renaming that leads from one to
the other is then changed at the new address only, which no handle in the store knows yet.
-/

set_option autoImplicit false

namespace LooseValue

/-- New names for addresses, different for different addresses. -/
abbrev Renaming : Type := Address ↪ Address

variable {ρ σ : Renaming}

namespace Payload

def rename (ρ : Renaming) : Payload → Payload
  | .boolean b => .boolean b
  | .number x => .number x
  | .text s => .text s
  | .shared cell => .shared (ρ cell)
  | .sequence buffer => .sequence (ρ buffer)

@[simp] theorem shared_rename (cell : Address) : shared (ρ cell) = (shared cell).rename ρ := rfl

@[simp] theorem sequence_rename (buffer : Address) :
    sequence (ρ buffer) = (sequence buffer).rename ρ := rfl

variable (payload : Payload)

@[simp] theorem kindName_rename : (payload.rename ρ).kindName = payload.kindName := by
  cases payload <;> rfl

@[simp] theorem indexable_rename : (payload.rename ρ).indexable = payload.indexable := by
  cases payload <;> rfl

@[simp] theorem truthy_rename : (payload.rename ρ).truthy = payload.truthy := by
  cases payload <;> rfl

@[simp] theorem primitive_rename : (payload.rename ρ).primitive = payload.primitive.map ρ := by
  cases payload <;> rfl

@[simp] theorem handles_rename : (payload.rename ρ).handles = payload.handles.map ρ := by
  cases payload <;> rfl

private theorem rename_congr {payload : Payload}
    (agree : ∀ handle ∈ payload.handles, ρ handle = σ handle) :
    payload.rename ρ = payload.rename σ := by
  cases payload with
  | shared cell => exact congrArg _ (agree cell List.mem_cons_self)
  | sequence buffer => exact congrArg _ (agree buffer List.mem_cons_self)
  | _ => rfl

end Payload

def Alternative.rename (ρ : Renaming) (alternative : Alternative) : Alternative :=
  { alternative with payload := alternative.payload.rename ρ }

theorem Primitive.looseEq_map {ι κ : Type} [DecidableEq ι] [DecidableEq κ] (f : ι ↪ κ)
    (a b : Primitive ι) : (a.map f).looseEq (b.map f) = a.looseEq b := by
  cases a <;> cases b <;> simp [map, looseEq, f.injective.beq_eq]

namespace Value

def rename (ρ : Renaming) : Value → Value
  | .undefined => .undefined
  | .active alternative => .active (alternative.rename ρ)

@[simp] theorem active_rename (position : Nat) (payload : Payload) :
    active ⟨position, payload.rename ρ⟩ = (active ⟨position, payload⟩).rename ρ := rfl

variable (value : Value)

@[simp] theorem isUndefined_rename : (value.rename ρ).isUndefined = value.isUndefined := by
  cases value <;> rfl

@[simp] theorem kindName_rename : (value.rename ρ).kindName = value.kindName := by
  cases value with
  | undefined => rfl
  | active alternative => exact alternative.payload.kindName_rename

@[simp] theorem truthy_rename : (value.rename ρ).truthy = value.truthy := by
  cases value with
  | undefined => rfl
  | active alternative => exact alternative.payload.truthy_rename

@[simp] theorem payload?_rename :
    (value.rename ρ).payload? = value.payload?.map (Payload.rename ρ) := by
  cases value <;> rfl

@[simp] theorem payloadAt?_rename (position : Nat) :
    (value.rename ρ).payloadAt? position = (value.payloadAt? position).map (Payload.rename ρ) := by
  cases value with
  | undefined => rfl
  | active alternative =>
      simp only [rename, payloadAt?, Alternative.rename]
      split <;> rfl

@[simp] theorem primitive?_rename :
    (value.rename ρ).primitive? = value.primitive?.map (Primitive.map ρ) := by
  simp [primitive?, Function.comp_def]

@[simp] theorem looseEq_rename (a b : Value) : (a.rename ρ).looseEq (b.rename ρ) = a.looseEq b := by
  simp only [looseEq, primitive?_rename]
  cases a.primitive? with
  | none => cases b.primitive? <;> rfl
  | some p =>
      cases b.primitive? with
      | none => rfl
      | some q => exact p.looseEq_map ρ q

@[simp] theorem handles_rename : (value.rename ρ).handles = value.handles.map ρ := by
  cases value with
  | undefined => rfl
  | active alternative => exact alternative.payload.handles_rename

private theorem rename_congr {value : Value}
    (agree : ∀ handle ∈ value.handles, ρ handle = σ handle) :
    value.rename ρ = value.rename σ := by
  cases value with
  | undefined => rfl
  | active alternative =>
      simp only [rename, Alternative.rename, Payload.rename_congr agree]

end Value

namespace Item

def rename (ρ : Renaming) : Item → Item
  | .plain payload => .plain (payload.rename ρ)
  | .value v => .value (v.rename ρ)

@[simp] theorem plain_rename (payload : Payload) :
    plain (payload.rename ρ) = (plain payload).rename ρ := rfl

@[simp] theorem value_rename (v : Value) : value (v.rename ρ) = (value v).rename ρ := rfl

variable (item : Item)

@[simp] theorem handles_rename : (item.rename ρ).handles = item.handles.map ρ := by
  cases item with
  | plain payload => exact payload.handles_rename
  | value value => exact value.handles_rename

@[simp] theorem flatMap_handles_rename (items : List Item) :
    (items.map (rename ρ)).flatMap handles = (items.flatMap handles).map ρ := by
  simp [List.flatMap_map, List.map_flatMap]

private theorem rename_congr {item : Item} (agree : ∀ handle ∈ item.handles, ρ handle = σ handle) :
    item.rename ρ = item.rename σ := by
  cases item with
  | plain payload => exact congrArg _ (Payload.rename_congr agree)
  | value value => exact congrArg _ (Value.rename_congr agree)

private theorem map_rename_congr {items : List Item}
    (agree : ∀ handle ∈ items.flatMap handles, ρ handle = σ handle) :
    items.map (rename ρ) = items.map (rename σ) := by
  refine List.map_congr_left fun item member => rename_congr fun handle inside => ?_
  exact agree handle (List.mem_flatMap.mpr ⟨item, member, inside⟩)

end Item

namespace Block

def rename (ρ : Renaming) : Block → Block
  | .cell content => .cell (content.rename ρ)
  | .buffer items => .buffer (items.map (Item.rename ρ))

@[simp] theorem cell_rename (content : Item) :
    cell (content.rename ρ) = (cell content).rename ρ := rfl

@[simp] theorem handles_rename (block : Block) : (block.rename ρ).handles = block.handles.map ρ := by
  cases block with
  | cell content => exact content.handles_rename
  | buffer items => exact Item.flatMap_handles_rename items

private theorem rename_congr {block : Block}
    (agree : ∀ handle ∈ block.handles, ρ handle = σ handle) :
    block.rename ρ = block.rename σ := by
  cases block with
  | cell content => exact congrArg _ (Item.rename_congr agree)
  | buffer items => exact congrArg _ (Item.map_rename_congr agree)

end Block

def Entry.rename (ρ : Renaming) (entry : Entry) : Entry where
  address := ρ entry.address
  holders := entry.holders
  block := entry.block.rename ρ

namespace Store

/-- The store in which every address has its new name, both in front of blocks and inside of them. -/
def rename (ρ : Renaming) (store : Store) : Store := ⟨store.entries.map (Entry.rename ρ)⟩

variable {store : Store}

@[simp] theorem addresses_rename (store : Store) :
    (store.rename ρ).addresses = store.addresses.map ρ := by
  simp [addresses, rename, Entry.rename, Function.comp_def]

/-! ## Operations -/

@[simp] theorem find?_rename (store : Store) (address : Address) :
    (store.rename ρ).find? (ρ address) = (store.find? address).map (Entry.rename ρ) := by
  simp [find?, rename, Entry.rename, List.find?_map, Function.comp_def, ρ.injective.beq_eq]

@[simp] theorem erase_rename (store : Store) (address : Address) :
    (store.rename ρ).erase (ρ address) = (store.erase address).rename ρ := by
  simp [erase, rename, List.eraseP_map, Entry.rename, Function.comp_def, ρ.injective.beq_eq]

@[simp] theorem recount_rename (store : Store) (address : Address) (f : Nat → Nat) :
    (store.rename ρ).recount (ρ address) f = (store.recount address f).rename ρ := by
  simp only [recount, rename, List.map_map, Store.mk.injEq]
  refine List.map_congr_left fun entry _ => ?_
  simp only [Function.comp, Entry.rename, ρ.injective.eq_iff]
  split <;> rfl

@[simp] theorem write_rename (store : Store) (address : Address) (block : Block) :
    (store.rename ρ).write (ρ address) (block.rename ρ) = (store.write address block).rename ρ := by
  simp only [write, rename, List.map_map, Store.mk.injEq]
  refine List.map_congr_left fun entry _ => ?_
  simp only [Function.comp, Entry.rename, ρ.injective.eq_iff]
  split <;> rfl

@[simp] theorem holders_rename (store : Store) (address : Address) :
    (store.rename ρ).holders (ρ address) = store.holders address := by
  simp only [holders, find?_rename]
  cases store.find? address <;> rfl

@[simp] theorem content_rename (store : Store) (address : Address) :
    (store.rename ρ).content (ρ address) = (store.content address).rename ρ := by
  simp only [content, find?_rename]
  cases store.find? address with
  | none => rfl
  | some entry =>
      obtain ⟨_, _, block⟩ := entry
      cases block <;> rfl

@[simp] theorem items_rename (store : Store) (address : Address) :
    (store.rename ρ).items (ρ address) = (store.items address).map (Item.rename ρ) := by
  simp only [items, find?_rename]
  cases store.find? address with
  | none => rfl
  | some entry =>
      obtain ⟨_, _, block⟩ := entry
      cases block <;> rfl

@[simp] theorem retain_rename (store : Store) (copied : List Address) :
    (store.rename ρ).retain (copied.map ρ) = (store.retain copied).rename ρ := by
  induction copied generalizing store with
  | nil => rfl
  | cons address copied ih => rw [List.map_cons, retain_cons, retain_cons, recount_rename, ih]

@[simp] theorem release_rename (store : Store) (dropped : List Address) :
    (store.rename ρ).release (dropped.map ρ) = (store.release dropped).rename ρ := by
  fun_induction Store.release store dropped with
  | case1 => rw [List.map_nil, release]
  | case2 store address rest missing ih =>
      rw [List.map_cons, release_cons_of_none (by rw [find?_rename, missing]; rfl), ih]
  | case3 store address rest entry found last ih =>
      have renamed : (store.rename ρ).find? (ρ address) = some (entry.rename ρ) := by
        rw [find?_rename, found, Option.map_some]
      rw [List.map_cons, release_cons_of_last renamed last, erase_rename, ← ih, List.map_append]
      simp only [Entry.rename, Block.holder_handles, Block.handles_rename]
  | case4 store address rest entry found several ih =>
      have renamed : (store.rename ρ).find? (ρ address) = some (entry.rename ρ) := by
        rw [find?_rename, found, Option.map_some]
      rw [List.map_cons, release_cons_of_several renamed several, recount_rename, ih]

/-! ## Trees -/

private theorem tree?_item_rename {payloadTree? renamedTree? : Payload → Option Tree}
    (same : ∀ payload, renamedTree? (payload.rename ρ) = payloadTree? payload) (item : Item) :
    (item.rename ρ).tree? renamedTree? = item.tree? payloadTree? := by
  rcases item with payload | (_ | ⟨position, payload⟩)
  · exact same payload
  · rfl
  · exact congrArg (Option.map (Tree.active position)) (same payload)

private theorem payloadTree?_rename (store : Store) (depth : Nat) (payload : Payload) :
    (store.rename ρ).payloadTree? depth (payload.rename ρ) = store.payloadTree? depth payload := by
  induction depth generalizing payload with
  | zero => cases payload <;> rfl
  | succ depth ih =>
      cases payload with
      | shared cell =>
          simp only [Payload.rename, payloadTree?, content_rename, tree?_item_rename ih]
      | sequence buffer =>
          simp only [Payload.rename, payloadTree?, items_rename, List.mapM_map, Function.comp_def,
            tree?_item_rename ih]
      | _ => rfl

@[simp] theorem tree?_rename (store : Store) (item : Item) :
    (store.rename ρ).tree? (item.rename ρ) = store.tree? item := by
  have length : (store.rename ρ).entries.length = store.entries.length := List.length_map _
  rw [tree?, tree?, length]
  exact tree?_item_rename (store.payloadTree?_rename _) item

end Store

/-! ## Allocation -/

namespace Renaming

/-- The renaming agrees with another one on whatever is live in the store. -/
def Extends (σ ρ : Renaming) (store : Store) : Prop :=
  ∀ address ∈ store.addresses, σ address = ρ address

namespace Extends

variable {store : Store}

theorem refl (ρ : Renaming) (store : Store) : ρ.Extends ρ store := fun _ _ => rfl

theorem rename_value (extended : σ.Extends ρ store) {value : Value}
    (live : ∀ handle ∈ value.handles, handle ∈ store.addresses) :
    value.rename σ = value.rename ρ :=
  Value.rename_congr fun handle inside => extended handle (live handle inside)

theorem rename_item (extended : σ.Extends ρ store) {item : Item}
    (live : ∀ handle ∈ item.handles, handle ∈ store.addresses) :
    item.rename σ = item.rename ρ :=
  Item.rename_congr fun handle inside => extended handle (live handle inside)

private theorem rename_block (extended : σ.Extends ρ store) {block : Block}
    (live : ∀ handle ∈ block.handles, handle ∈ store.addresses) :
    block.rename σ = block.rename ρ :=
  Block.rename_congr fun handle inside => extended handle (live handle inside)

theorem rename_store (extended : σ.Extends ρ store)
    (closed : ∀ handle ∈ store.handles, handle ∈ store.addresses) :
    store.rename σ = store.rename ρ := by
  refine congrArg Store.mk (List.map_congr_left fun entry member => ?_)
  have block : entry.block.rename σ = entry.block.rename ρ :=
    extended.rename_block fun handle held =>
      closed handle (List.mem_flatMap.mpr ⟨entry, member, held⟩)
  simp only [Entry.rename, extended entry.address (List.mem_map_of_mem member), block]

end Extends

/-- The renaming with a new name for one address. The address that had the name takes the old one. -/
def extend (ρ : Renaming) (address target : Address) : Renaming :=
  ρ.trans (Equiv.swap (ρ address) target).toEmbedding

@[simp] theorem extend_self (ρ : Renaming) (address target : Address) :
    ρ.extend address target address = target :=
  Equiv.swap_apply_left ..

private theorem extends_extend {store : Store} {address target : Address}
    (new : address ∉ store.addresses) (newTarget : target ∉ (store.rename ρ).addresses) :
    (ρ.extend address target).Extends ρ store := by
  intro other live
  apply Equiv.swap_apply_of_ne_of_ne
  · intro same
    exact new (ρ.injective same ▸ live)
  · intro same
    rw [Store.addresses_rename] at newTarget
    exact newTarget (same ▸ List.mem_map_of_mem live)

end Renaming

namespace Store

variable {store : Store} {block : Block}

/-- Whatever two allocators pick, the new blocks correspond under a renaming that agrees with the
given one on all that was live before. -/
theorem exists_allocate_rename (ρ : Renaming) (first second : Allocator)
    (closed : ∀ handle ∈ store.handles, handle ∈ store.addresses)
    (inside : ∀ handle ∈ block.handles, handle ∈ store.addresses) :
    ∃ σ : Renaming, σ.Extends ρ store ∧ (store.rename ρ).allocate second (block.rename ρ) =
      (store.allocate first block).map σ (rename σ) := by
  let picked := first.pick store.addresses
  let target := second.pick (store.rename ρ).addresses
  have extended : (ρ.extend picked target).Extends ρ store :=
    Renaming.extends_extend (first.fresh _) (second.fresh _)
  have renamed (σ : Renaming) : (store.allocate first block).map σ (rename σ) =
      (σ picked, ⟨⟨σ picked, 1, block.rename σ⟩ :: (store.rename σ).entries⟩) := rfl
  -- The picked address is known neither inside the block nor in the store, so only the new entry
  -- shows that the renaming was extended.
  refine ⟨ρ.extend picked target, extended, ?_⟩
  rw [renamed, Renaming.extend_self, extended.rename_block inside, extended.rename_store closed]
  rfl

end Store

end LooseValue
