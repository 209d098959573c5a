import LooseValue.AccessError
import LooseValue.Number.Binary

/-!
# Bulk vectors

Plain vectors of one scalar type, beside the values and not inside them. Positions are checked,
with the same error that sequences give; nothing here emits an event.
-/

set_option autoImplicit false

namespace LooseValue

namespace Bulk

variable {α : Type}

def create : List α := []

def createSized (default : α) (size : Nat) : List α := List.replicate size default

def push (vector : List α) (element : α) : List α := vector ++ [element]

def get (vector : List α) (index : Nat) : Except AccessError α :=
  match vector[index]? with
  | some element => .ok element
  | none => .error (.indexOutOfBounds index vector.length)

def set (vector : List α) (index : Nat) (element : α) : Except AccessError (List α) :=
  if index < vector.length then .ok (vector.set index element)
  else .error (.indexOutOfBounds index vector.length)

def size (vector : List α) : Nat := vector.length

inductive Op (α : Type) where
  | create
  | createSized (size : Nat)
  | push (element : α)
  | get (index : Nat)
  | set (index : Nat) (element : α)
  | size

inductive Answer (α : Type) where
  | done
  | element (element : α)
  | size (size : Nat)

/-- The next vector and the outcome of an operation. A refused operation keeps the vector. -/
def step (default : α) (vector : List α) : Op α → List α × Except AccessError (Answer α)
  | .create => (create, .ok .done)
  | .createSized size => (createSized default size, .ok .done)
  | .push element => (push vector element, .ok .done)
  | .get index => (vector, (get vector index).map .element)
  | .set index element =>
      match set vector index element with
      | .ok changed => (changed, .ok .done)
      | .error error => (vector, .error error)
  | .size => (vector, .ok (.size (size vector)))

/-- The vector after each of a list of operations, with the outcomes. -/
def run (default : α) (vector : List α) :
    List (Op α) → List (List α × Except AccessError (Answer α))
  | [] => []
  | op :: ops =>
      let reached := step default vector op
      reached :: run default reached.1 ops

/-- Element types of vectors. All but two of them are offered; vectors of `uint64` and of `character`
are not, and stand here for those that a client adds for element types of its own. -/
inductive Family where
  | float64
  | float32
  | int32
  | int64
  | uint8
  | uint64
  | boolean
  | character

def Family.Element : Family → Type
  | .float64 => Binary64
  | .float32 => Binary32
  | .int32 => Int32
  | .int64 => Int64
  | .uint8 => UInt8
  | .uint64 => UInt64
  | .boolean => Bool
  | .character => Char

/-- The default element of a family: zero, false, or the character of code point zero. -/
def Family.default : (family : Family) → family.Element
  | .float64 => Binary.zero false
  | .float32 => Binary.zero false
  | .int32 => (0 : Int32)
  | .int64 => (0 : Int64)
  | .uint8 => (0 : UInt8)
  | .uint64 => (0 : UInt64)
  | .boolean => false
  | .character => '\x00'

end Bulk

end LooseValue
