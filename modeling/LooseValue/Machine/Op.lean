import LooseValue.Machine.Literal

/-!
# Operations

What can be asked of named items. An operation that produces an item may name a target: the item
is stored there, and whatever the target held before is dropped; without a target the item itself
is dropped once it has been seen.
-/

set_option autoImplicit false

namespace LooseValue

/-- A primitive without identity. -/
abbrev Scalar : Type := Primitive Empty

/-- The scalar as comparison sees it. -/
def Primitive.ofScalar (scalar : Scalar) : Primitive Address := scalar.map Empty.elim

inductive ValueOp where
  /-- Everything that can be observed of the value. -/
  | summary
  /-- Take up a new alternative. -/
  | set (position : Nat) (literal : Literal)
  /-- Give up the alternative. -/
  | clear
  /-- Move the value out and leave nothing behind. -/
  | take (target : Option String)
  | rewrap (target : Option String)
  /-- Copy the payload at a position, if that is the active one. -/
  | get (position : Nat) (target : Option String)
  /-- Overwrite the payload at a position in place, if that is the active one. -/
  | overwrite (position : Nat) (literal : Literal)
  | referent (target : Option String)
  | element (index : Nat) (target : Option String)
  | setElement (index : Nat) (literal : Literal)
  | compare (scalar : Scalar)

inductive SharedOp where
  | get (target : Option String)
  | replace (literal : Literal) (target : Option String)
  /-- Change the content in place; the change here is an exchange. -/
  | update (literal : Literal) (target : Option String)
  | write (literal : Literal)
  /-- Whether another reference is to the same cell. -/
  | same (other : String)
  | holders

inductive SequenceOp where
  | length
  | get (index : Nat) (target : Option String)
  | set (index : Nat) (literal : Literal) (target : Option String)
  /-- Change an item in place; the change here is an exchange. -/
  | update (index : Nat) (literal : Literal) (target : Option String)
  | push (literal : Literal)
  | pop (target : Option String)
  | toList
  /-- Whether another sequence has the same buffer. -/
  | same (other : String)
  | holders

inductive Op where
  /-- Build a literal and name it. -/
  | create (target : String) (type : Ty) (literal : Literal)
  | clone (source target : String)
  /-- Drop a named item together with its name. -/
  | drop (source : String)
  | compare (left right : String)
  /-- Everything that can be observed of a plain payload. -/
  | profile (source : String)
  | value (source : String) (op : ValueOp)
  | shared (source : String) (op : SharedOp)
  | sequence (source : String) (op : SequenceOp)

end LooseValue
