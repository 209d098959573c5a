import LooseValue.Value

/-!
# The store

A store keeps each live block under its address together with the number of handles to it. Copying
an item retains the blocks that it has handles to, dropping an item releases them, and a block whose
last handle is released goes away and releases what it holds itself. Counting asks of a block only
which handles are inside it. The blocks of items are cells with one item and buffers with a list of
items, and a store is one of these unless it is said to be another one.

Which address a new block gets is up to an allocator, of which only freshness is known.
-/

set_option autoImplicit false

namespace LooseValue

/-- What a block of storage may be: of its content only the handles inside it matter here. -/
class Holder (β : Type) where
  handles : β → List Address

/-- The content of one piece of storage. -/
inductive Block where
  | cell (content : Item)
  | buffer (items : List Item)
  deriving DecidableEq

def Block.handles : Block → List Address
  | .cell content => content.handles
  | .buffer items => items.flatMap Item.handles

instance : Holder Block := ⟨Block.handles⟩

@[simp] theorem Block.holder_handles (block : Block) : Holder.handles block = block.handles := rfl

/-- A live block with its address and the number of handles to it. -/
structure Entry (β : Type := Block) where
  address : Address
  holders : Nat
  block : β
  deriving DecidableEq

structure Store (β : Type := Block) where
  entries : List (Entry β)
  deriving DecidableEq

/-- A choice of addresses for new blocks that never hits a live one. -/
structure Allocator where
  pick : List Address → Address
  fresh : ∀ live, pick live ∉ live

namespace Store

section Blocks

variable {β : Type}

def empty : Store β := ⟨[]⟩

def addresses (store : Store β) : List Address := store.entries.map Entry.address

def find? (store : Store β) (address : Address) : Option (Entry β) :=
  store.entries.find? fun entry => entry.address == address

def erase (store : Store β) (address : Address) : Store β :=
  ⟨store.entries.eraseP fun entry => entry.address == address⟩

/-- The store with the holders of the block at an address counted anew. -/
def recount (store : Store β) (address : Address) (f : Nat → Nat) : Store β :=
  ⟨store.entries.map fun entry =>
    if entry.address = address then { entry with holders := f entry.holders } else entry⟩

/-- The store with the block at an address overwritten; handles to it see the new content. -/
def write (store : Store β) (address : Address) (block : β) : Store β :=
  ⟨store.entries.map fun entry =>
    if entry.address = address then { entry with block } else entry⟩

def holders (store : Store β) (address : Address) : Nat :=
  match store.find? address with
  | some entry => entry.holders
  | none => 0

/-- A new block with one handle to it, at an address of the allocator's choice. -/
def allocate (allocator : Allocator) (block : β) (store : Store β) : Address × Store β :=
  let address := allocator.pick store.addresses
  (address, ⟨⟨address, 1, block⟩ :: store.entries⟩)

/-- One more handle to each of the addresses, as a copy makes them. -/
def retain (store : Store β) (copied : List Address) : Store β :=
  copied.foldl (fun store address => store.recount address (· + 1)) store

end Blocks

def content (store : Store) (address : Address) : Item :=
  match store.find? address with
  | some ⟨_, _, .cell content⟩ => content
  | _ => .value .undefined

def items (store : Store) (address : Address) : List Item :=
  match store.find? address with
  | some ⟨_, _, .buffer items⟩ => items
  | _ => []

section Handles

variable {β : Type} [Holder β]

/-- The handles inside all live blocks. -/
def handles (store : Store β) : List Address :=
  store.entries.flatMap fun entry => Holder.handles entry.block

/-- Counting holders anew leaves the contents alone. -/
theorem handles_recount (store : Store β) (address : Address) (f : Nat → Nat) :
    (store.recount address f).handles = store.handles := by
  simp only [handles, recount, List.flatMap_map]
  congr 1
  funext entry
  split <;> rfl

/-- A block that goes away takes exactly its own handles with it. -/
theorem length_handles_erase {store : Store β} {address : Address} {entry : Entry β}
    (found : store.find? address = some entry) :
    (store.erase address).handles.length + (Holder.handles entry.block).length =
      store.handles.length := by
  obtain ⟨entries⟩ := store
  simp only [find?, erase, handles] at found ⊢
  induction entries with
  | nil => simp at found
  | cons head tail ih =>
      by_cases here : head.address == address
      · have same : head = entry := by simpa [here] using found
        subst same
        simp [here, Nat.add_comm]
      · have later := ih (by simpa [here] using found)
        simp only [List.eraseP_cons, here, cond_false, List.flatMap_cons, List.length_append]
        omega

/-- One handle less to each of the addresses. A block that loses its last handle goes away, and
the handles inside it are released in turn. -/
def release (store : Store β) : (dropped : List Address) → Store β
  | [] => store
  | address :: rest =>
      match found : store.find? address with
      | none => store.release rest
      | some entry =>
          if entry.holders ≤ 1 then
            (store.erase address).release (Holder.handles entry.block ++ rest)
          else (store.recount address (· - 1)).release rest
termination_by dropped => store.handles.length + dropped.length
decreasing_by
  · simp
  · have shrunk := length_handles_erase found
    simp only [List.length_append, List.length_cons]
    omega
  · simp [handles_recount]

end Handles

end Store

/-- The allocator that goes one beyond the highest live address. -/
def Allocator.ascending : Allocator where
  pick live := live.foldr max 0 + 1
  fresh live := by
    have below : ∀ address ∈ live, address ≤ live.foldr max 0 := by
      induction live with
      | nil => simp
      | cons head tail ih =>
          intro address member
          rcases List.mem_cons.mp member with rfl | member
          · exact Nat.le_max_left ..
          · exact Nat.le_trans (ih address member) (Nat.le_max_right ..)
    intro member
    exact Nat.lt_irrefl _ (below _ member)

end LooseValue
