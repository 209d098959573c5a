import LooseValue.Store

/-!
# Trees

A tree is the content of an item with every handle followed to its end: what can be seen of the
item without addresses. An item whose storage contains itself has no tree. Following a handle can
pass through each live block at most once on the way to an end, so the number of live blocks is a
sufficient bound for the depth.
-/

set_option autoImplicit false

namespace LooseValue

/-- Content without addresses. -/
inductive Tree where
  | undefined
  | active (position : Nat) (payload : Tree)
  | boolean (b : Bool)
  | number (x : Binary64)
  | text (s : String)
  | shared (referent : Tree)
  | sequence (items : List Tree)

def Item.tree? (payloadTree? : Payload → Option Tree) : Item → Option Tree
  | .plain payload => payloadTree? payload
  | .value .undefined => some .undefined
  | .value (.active ⟨position, payload⟩) => (payloadTree? payload).map (.active position)

namespace Store

/-- The tree of a payload in which no end is more than `depth` handles away. -/
def payloadTree? (store : Store) : (depth : Nat) → Payload → Option Tree
  | _, .boolean b => some (.boolean b)
  | _, .number x => some (.number x)
  | _, .text s => some (.text s)
  | 0, .shared _ => none
  | 0, .sequence _ => none
  | depth + 1, .shared cell =>
      ((store.content cell).tree? (store.payloadTree? depth)).map .shared
  | depth + 1, .sequence buffer =>
      ((store.items buffer).mapM (Item.tree? (store.payloadTree? depth))).map .sequence

def tree? (store : Store) (item : Item) : Option Tree :=
  item.tree? (store.payloadTree? store.entries.length)

end Store

end LooseValue
