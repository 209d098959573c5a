import LooseValue.Store

/-!
# Literals

A literal describes an item to be made: scalars, new cells and buffers with what goes into them,
the default of a type, or a copy of a named item. Building a literal of a type allocates its
storage from the inside out, so that whatever goes into a block exists before the block. A literal
that does not fit the type builds nothing.
-/

set_option autoImplicit false

namespace LooseValue

/-- A named item with its type. -/
structure Register where
  type : Ty
  item : Item
  deriving DecidableEq

inductive Literal where
  | boolean (b : Bool)
  | number (x : Binary64)
  | text (s : String)
  /-- A reference to a new cell. -/
  | shared (referent : Literal)
  /-- A reference to a new buffer. -/
  | sequence (items : List Literal)
  /-- The value that holds nothing. -/
  | undefined
  /-- The value that holds a payload at a position. -/
  | active (position : Nat) (payload : Literal)
  /-- The default of the type, made anew. -/
  | default
  /-- A copy of the named item, which shares its storage. -/
  | copy (name : String)

/-- A sequence of defaults, each made separately. -/
def Literal.defaults (length : Nat) : Literal := .sequence (List.replicate length .default)

mutual

/-- The default item of a type. -/
def Ty.makeDefault (allocator : Allocator) : Ty → Store → Item × Store
  | .kind kind, store =>
      let (payload, store) := kind.makeDefault allocator store
      (.plain payload, store)
  | .value _, store => (.value .undefined, store)
  | .dynamic, store => (.value .undefined, store)

/-- The default payload of a kind: false, zero, the empty text, a reference to a new cell with the
default of its type, or a reference to a new empty buffer. -/
def Kind.makeDefault (allocator : Allocator) : Kind → Store → Payload × Store
  | .boolean, store => (.boolean false, store)
  | .number, store => (.number (.zero false), store)
  | .text, store => (.text "", store)
  | .shared payload, store =>
      let (content, store) := payload.makeDefault allocator store
      let (cell, store) := store.allocate allocator (.cell content)
      (.shared cell, store)
  | .sequence _, store =>
      let (buffer, store) := store.allocate allocator (.buffer [])
      (.sequence buffer, store)

end

namespace Literal

mutual

/-- The item that a literal of a type describes, with the store in which it exists. -/
def build (allocator : Allocator) (registers : List (String × Register)) :
    Literal → Ty → Store → Option (Item × Store)
  | .boolean b, .kind .boolean, store => some (.plain (.boolean b), store)
  | .boolean _, _, _ => none
  | .number x, .kind .number, store => some (.plain (.number x), store)
  | .number _, _, _ => none
  | .text s, .kind .text, store => some (.plain (.text s), store)
  | .text _, _, _ => none
  | .shared referent, .kind (.shared payload), store =>
      match build allocator registers referent payload store with
      | none => none
      | some (content, store) =>
          let (cell, store) := store.allocate allocator (.cell content)
          some (.plain (.shared cell), store)
  | .shared _, _, _ => none
  | .sequence literals, .kind (.sequence payload), store =>
      match buildAll allocator registers literals payload store with
      | none => none
      | some (items, store) =>
          let (buffer, store) := store.allocate allocator (.buffer items)
          some (.plain (.sequence buffer), store)
  | .sequence _, _, _ => none
  | .undefined, type, store => if type.isValue then some (.value .undefined, store) else none
  | .active position literal, type, store =>
      match type.kinds?.bind (·[position]?) with
      | none => none
      | some kind =>
          match build allocator registers literal (.kind kind) store with
          | some (.plain payload, store) => some (.value (.active ⟨position, payload⟩), store)
          | _ => none
  | .default, type, store => some (type.makeDefault allocator store)
  | .copy name, type, store =>
      match registers.lookup name with
      | none => none
      | some register =>
          if register.type = type then some (register.item, store.retain register.item.handles)
          else none

/-- The items that a list of literals of one type describes, made from first to last. -/
def buildAll (allocator : Allocator) (registers : List (String × Register)) :
    List Literal → Ty → Store → Option (List Item × Store)
  | [], _, store => some ([], store)
  | literal :: literals, type, store =>
      match build allocator registers literal type store with
      | none => none
      | some (item, store) =>
          match buildAll allocator registers literals type store with
          | none => none
          | some (items, store) => some (item :: items, store)

end

/-- The payload that a literal of a kind describes, with the store in which it exists. -/
def buildPayload (allocator : Allocator) (registers : List (String × Register)) (kind : Kind)
    (literal : Literal) (store : Store) : Option (Payload × Store) :=
  match literal.build allocator registers (.kind kind) store with
  | some (.plain payload, store) => some (payload, store)
  | _ => none

end Literal

end LooseValue
