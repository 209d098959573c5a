import LooseValue.Sequence
import LooseValue.Shape.Embedding
import LooseValue.Store

/-!
# Accesses

Reading and writing through a handle. A value over a list of kinds can be dereferenced or indexed
if its active payload is of the right kind; what comes out is embedded into the result type of the
whole list, and what is written is first projected from it. An element that the active sequence
cannot store is refused before its index is looked at.

Reads leave the store as it is. Writes take over the item that they are given: they store it, or
drop it when the access is refused.
-/

set_option autoImplicit false

namespace LooseValue

def dereferenceName : String := "dereference"

def indexName : String := "index"

namespace Store

def itemAt (store : Store) (buffer : Address) (index : Nat) : Logged Item :=
  Sequence.get (store.items buffer) index

/-- The item at an index of a buffer exchanged for another one, which is dropped if there is no such
index. -/
def exchange (store : Store) (buffer : Address) (index : Nat) (item : Item) :
    Store × Logged Item :=
  match Sequence.set (store.items buffer) index item with
  | (items, ⟨.ok previous, events⟩) => (store.write buffer (.buffer items), ⟨.ok previous, events⟩)
  | (_, ⟨.error error, events⟩) => (store.release item.handles, ⟨.error error, events⟩)

/-- What a value over a list of kinds refers to. -/
def referent (store : Store) (kinds : List Kind) : Value → Logged Item
  | .undefined => .refuse (.invalidAccess dereferenceName undefinedName)
  | .active ⟨position, .shared cell⟩ =>
      .grant (Shape.embed Kind.referentShape kinds position (store.content cell))
  | .active ⟨_, payload⟩ => .refuse (.invalidAccess dereferenceName payload.kindName)

/-- The element at an index of a value over a list of kinds. -/
def element (store : Store) (kinds : List Kind) (index : Nat) : Value → Logged Item
  | .undefined => .refuse (.invalidAccess indexName undefinedName)
  | .active ⟨position, .sequence buffer⟩ =>
      (store.itemAt buffer index).map (Shape.embed Kind.elementShape kinds position)
  | .active ⟨_, payload⟩ => .refuse (.invalidAccess indexName payload.kindName)

/-- The element at an index of a value over a list of kinds overwritten; the previous element is
dropped. -/
def setElement (store : Store) (kinds : List Kind) (index : Nat) (element : Item) :
    Value → Store × Logged Unit
  | .undefined =>
      (store.release element.handles, .refuse (.invalidAccess indexName undefinedName))
  | .active ⟨position, .sequence buffer⟩ =>
      match Shape.project Kind.elementShape kinds position element with
      | none =>
          (store.release element.handles,
            .refuse (.elementMismatch index (Payload.sequence buffer).kindName))
      | some item =>
          match store.exchange buffer index item with
          | (store, ⟨.ok previous, events⟩) => (store.release previous.handles, ⟨.ok (), events⟩)
          | (store, ⟨.error error, events⟩) => (store, ⟨.error error, events⟩)
  | .active ⟨_, payload⟩ =>
      (store.release element.handles, .refuse (.invalidAccess indexName payload.kindName))

end Store

end LooseValue
