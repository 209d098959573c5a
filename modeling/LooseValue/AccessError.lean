import LooseValue.Text.Quoted

/-!
# Access errors

Comparison, truthiness and rendering never fail; only dereferencing and indexing can. An error
says which access was refused and why, and its message is the one text shown to a reader.
-/

set_option autoImplicit false

namespace LooseValue

/-- Why an access was refused. -/
inductive AccessError where
  /-- The active payload, of the kind named `found`, does not support the operation. -/
  | invalidAccess (operation found : String)
  /-- The index is not below the length. -/
  | indexOutOfBounds (index length : Nat)
  /-- The receiving payload, of the kind named `sequence`, cannot store the element. -/
  | elementMismatch (index : Nat) (sequence : String)
  deriving DecidableEq

namespace AccessError

def message : AccessError → String
  | .invalidAccess operation found =>
      "Invalid access: cannot " ++ operation ++ " a value holding " ++ found
  | .indexOutOfBounds index length =>
      "Index out of bounds: index " ++ toString index ++ ", length " ++ toString length
  | .elementMismatch index sequence =>
      "Element mismatch: " ++ sequence ++ " at index " ++ toString index
        ++ " cannot store this kind"

/-- Whether the payload had the wrong kind for the operation, rather than the wrong content. -/
def isInvalidAccess : AccessError → Bool
  | .invalidAccess .. => true
  | .indexOutOfBounds .. => false
  | .elementMismatch .. => false

/-- A name with its fields in braces. -/
def record (name : String) (fields : List (String × List Char)) : List Char :=
  let written := fields.map fun field => field.1.toList ++ ':' :: ' ' :: field.2
  name.toList ++ " \x7b ".toList ++ [',', ' '].intercalate written ++ " \x7d".toList

/-- The detailed text of an error, with its fields. -/
def detail : AccessError → List Char
  | .invalidAccess operation found =>
      record "InvalidAccess"
        [("operation", quoted operation.toList), ("found", quoted found.toList)]
  | .indexOutOfBounds index length =>
      record "IndexOutOfBounds"
        [("index", Nat.toDigits 10 index), ("len", Nat.toDigits 10 length)]
  | .elementMismatch index sequence =>
      record "ElementMismatch"
        [("index", Nat.toDigits 10 index), ("sequence", quoted sequence.toList)]

end AccessError

end LooseValue
