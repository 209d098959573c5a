import LooseValue.Kind
import LooseValue.Primitive

/-!
# Payloads, values and items

A payload is a scalar, or the address of a cell or buffer in a store. An alternative is a payload
with the position of its kind in a list; a value is undefined or holds an alternative; and an item,
which is what a name, a cell or a slot of a buffer holds, is a plain payload or a value.

What can be observed of a payload here needs no store: its kind's name, whether it is indexable,
whether it is truthy, and its primitive.
-/

set_option autoImplicit false

namespace LooseValue

/-- The name of a cell or buffer in a store. -/
abbrev Address : Type := Nat

/-- The name that messages give to a value that holds nothing. -/
def undefinedName : String := "undefined"

/-- The version of the values and of what can be done with them. -/
def version : String := "0.0.1"

/-- A scalar, or a handle to storage. -/
inductive Payload where
  | boolean (b : Bool)
  | number (x : Binary64)
  | text (s : String)
  | shared (cell : Address)
  | sequence (buffer : Address)
  deriving DecidableEq

/-- A payload tagged by the position of its kind in a list. -/
structure Alternative where
  position : Nat
  payload : Payload
  deriving DecidableEq

/-- Nothing, or one alternative of a list. -/
inductive Value where
  | undefined
  | active (alternative : Alternative)
  deriving DecidableEq

/-- The content of a name, a cell or a slot of a buffer. -/
inductive Item where
  | plain (payload : Payload)
  | value (value : Value)
  deriving DecidableEq

namespace Payload

def kindName : Payload → String
  | .boolean _ => "boolean"
  | .number _ => "number"
  | .text _ => "string"
  | .shared _ => "shared"
  | .sequence _ => "sequence"

/-- Whether the payload has elements at positions. -/
def indexable : Payload → Bool
  | .sequence _ => true
  | _ => false

/-- Booleans are themselves, numbers are true unless zero, texts unless empty, and compound
payloads always. Not-a-number is not zero. -/
def truthy : Payload → Bool
  | .boolean b => b
  | .number x => !x.isZero
  | .text s => s != ""
  | .shared _ => true
  | .sequence _ => true

/-- What comparison sees of the payload. -/
def primitive : Payload → Primitive Address
  | .boolean b => .boolean b
  | .number x => .number x
  | .text s => .text s
  | .shared cell => .object cell
  | .sequence buffer => .object buffer

/-- The handles to storage that the payload holds: one if it is compound, else none. -/
def handles : Payload → List Address
  | .shared cell => [cell]
  | .sequence buffer => [buffer]
  | _ => []

end Payload

namespace Alternative

/-- The alternative seen from a list with one more kind in front. -/
def afterHead (alternative : Alternative) : Alternative :=
  { alternative with position := alternative.position + 1 }

/-- An alternative of the left list, seen from the concatenation. Positions are counted from the
front, so it keeps its position. -/
def appendLeft (alternative : Alternative) : Alternative := alternative

/-- An alternative of the right list, seen from the concatenation with `left`. -/
def appendRight : (left : List Kind) → Alternative → Alternative
  | [], alternative => alternative
  | _ :: left, alternative => (appendRight left alternative).afterHead

/-- The side, of a concatenation with `left` in front, that an alternative belongs to, and the
alternative as seen from there. -/
def split : (left : List Kind) → Alternative → Alternative ⊕ Alternative
  | [], alternative => .inr alternative
  | _ :: _, ⟨0, payload⟩ => .inl ⟨0, payload⟩
  | _ :: left, ⟨position + 1, payload⟩ =>
      match split left ⟨position, payload⟩ with
      | .inl alternative => .inl alternative.afterHead
      | .inr alternative => .inr alternative

end Alternative

namespace Value

def payload? : Value → Option Payload
  | .undefined => none
  | .active alternative => some alternative.payload

/-- The payload at a position, if that is the active one. -/
def payloadAt? (position : Nat) : Value → Option Payload
  | .undefined => none
  | .active alternative =>
      if alternative.position = position then some alternative.payload else none

/-- The same value with its alternative seen from another list. -/
def retag (f : Alternative → Alternative) : Value → Value
  | .undefined => .undefined
  | .active alternative => .active (f alternative)

def isUndefined : Value → Bool
  | .undefined => true
  | .active _ => false

def kindName : Value → String
  | .undefined => undefinedName
  | .active alternative => alternative.payload.kindName

/-- The boolean that the value counts as; nothing counts as false. -/
def truthy : Value → Bool
  | .undefined => false
  | .active alternative => alternative.payload.truthy

def primitive? (value : Value) : Option (Primitive Address) := value.payload?.map Payload.primitive

/-- Loose equality of a value and a primitive; an undefined value equals nothing. -/
def equalsPrimitive (value : Value) (primitive : Primitive Address) : Bool :=
  match value.primitive? with
  | some own => own.looseEq primitive
  | none => false

/-- Loose equality of values; an undefined value equals nothing, not even itself. -/
def looseEq (a b : Value) : Bool :=
  match a.primitive?, b.primitive? with
  | some p, some q => p.looseEq q
  | _, _ => false

/-- Loose inequality denies loose equality, so an undefined value is unequal to everything. -/
def looseNe (a b : Value) : Bool := !a.looseEq b

theorem looseEq_comm (a b : Value) : a.looseEq b = b.looseEq a := by
  unfold looseEq
  cases a.primitive? with
  | none => cases b.primitive? <;> rfl
  | some p =>
      cases b.primitive? with
      | none => rfl
      | some q => exact p.looseEq_comm q

def handles : Value → List Address
  | .undefined => []
  | .active alternative => alternative.payload.handles

end Value

namespace Item

/-- The item as a value: a plain payload is the only alternative there is. -/
def toValue : Item → Value
  | .plain payload => .active ⟨0, payload⟩
  | .value v => v

def payload? : Item → Option Payload
  | .plain payload => some payload
  | .value v => v.payload?

def handles : Item → List Address
  | .plain payload => payload.handles
  | .value v => v.handles

end Item

end LooseValue
