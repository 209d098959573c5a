import LooseValue.Sequence
import LooseValue.Store

/-!
# Sequences of plain elements

Buffers of elements of any one type, reached through named handles. The elements hold no handles
themselves and need not be of a kind that values can have: what a handle keeps alive is its buffer
and nothing else. Naming a handle drops the one that the name had before.
-/

set_option autoImplicit false

namespace LooseValue

/-- A buffer of plain elements. -/
structure Buffer (α : Type) where
  elements : List α

instance {α : Type} : Holder (Buffer α) := ⟨fun _ => []⟩

/-- Buffers with the handles that are named. -/
structure Sequences (α : Type) where
  store : Store (Buffer α)
  names : List (String × Address)

namespace Sequences

/-- What is done through a handle to a buffer. -/
inductive Use (α : Type) where
  | length
  | get (index : Nat)
  | set (index : Nat) (element : α)
  | update (index : Nat) (change : α → α)
  | push (element : α)
  | pop
  | toList
  | holders

inductive Op (α : Type) where
  | create (target : String) (elements : List α)
  | createSized (target : String) (length : Nat)
  | clone (source target : String)
  | drop (source : String)
  | same (left right : String)
  | use (source : String) (use : Use α)

inductive Answer (α : Type) where
  | done
  | element (element : α)
  | last (element : Option α)
  | length (length : Nat)
  | elements (elements : List α)
  | truth (truth : Bool)
  | count (count : Nat)

variable {α : Type}

def initial : Sequences α := ⟨.empty, []⟩

/-- The buffer that a name has a handle to. -/
def buffer? (state : Sequences α) (name : String) : Option Address := state.names.lookup name

def elements (state : Sequences α) (buffer : Address) : List α :=
  match state.store.find? buffer with
  | some entry => entry.block.elements
  | none => []

def overwrite (state : Sequences α) (buffer : Address) (elements : List α) : Sequences α :=
  { state with store := state.store.write buffer ⟨elements⟩ }

/-- The state without a name, and the handle of the name dropped. -/
def remove (state : Sequences α) (name : String) : Sequences α where
  store := state.store.release (state.buffer? name).toList
  names := state.names.eraseP fun entry => entry.1 == name

/-- The state with a handle at hand named, and the handle that the name had before dropped. -/
def put (state : Sequences α) (name : String) (buffer : Address) : Sequences α :=
  { state.remove name with names := (name, buffer) :: (state.remove name).names }

/-- The state with a new buffer under a name. -/
def allocate (allocator : Allocator) (state : Sequences α) (target : String) (elements : List α) :
    Sequences α :=
  let (buffer, store) := state.store.allocate allocator ⟨elements⟩
  { state with store }.put target buffer

/-- The state with a second handle to a buffer under a name. -/
def share (state : Sequences α) (target : String) (buffer : Address) : Sequences α :=
  { state with store := state.store.retain [buffer] }.put target buffer

def useStep (state : Sequences α) (buffer : Address) : Use α → Sequences α × Logged (Answer α)
  | .length => (state, .grant (.length (state.elements buffer).length))
  | .get index => (state, (Sequence.get (state.elements buffer) index).map .element)
  | .set index element =>
      let (elements, access) := Sequence.set (state.elements buffer) index element
      (state.overwrite buffer elements, access.map .element)
  | .update index change =>
      let (elements, access) :=
        Sequence.update (state.elements buffer) index fun element => (change element, ())
      (state.overwrite buffer elements, access.map fun _ => .done)
  | .push element =>
      (state.overwrite buffer (Sequence.push (state.elements buffer) element), .grant .done)
  | .pop =>
      let (elements, last) := Sequence.pop (state.elements buffer)
      (state.overwrite buffer elements, .grant (.last last))
  | .toList => (state, .grant (.elements (state.elements buffer)))
  | .holders => (state, .grant (.count (state.store.holders buffer)))

/-- The outcome of an operation, if all its names are bound. -/
def step? (default : α) (allocator : Allocator) (state : Sequences α) :
    Op α → Option (Sequences α × Logged (Answer α))
  | .create target elements => some (state.allocate allocator target elements, .grant .done)
  | .createSized target length =>
      some (state.allocate allocator target (List.replicate length default), .grant .done)
  | .clone source target => do
      let buffer ← state.buffer? source
      return (state.share target buffer, .grant .done)
  | .drop source => do
      let _ ← state.buffer? source
      return (state.remove source, .grant .done)
  | .same left right => do
      let one ← state.buffer? left
      let other ← state.buffer? right
      return (state, .grant (.truth (one == other)))
  | .use source use => do
      let buffer ← state.buffer? source
      return state.useStep buffer use

/-- The next state and what was answered; nothing happens if a name is not bound. -/
def step (default : α) (allocator : Allocator) (state : Sequences α) (op : Op α) :
    Sequences α × Option (Logged (Answer α)) :=
  match state.step? default allocator op with
  | some (next, access) => (next, some access)
  | none => (state, none)

end Sequences

end LooseValue
