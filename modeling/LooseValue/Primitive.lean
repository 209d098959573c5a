import LooseValue.Number.Text
import LooseValue.Text.Quoted

/-!
# Primitives and loose equality

The primitive of a payload is what comparison sees of it: a scalar is seen whole, and a compound
payload only through the identity of its storage. Identities come from a type of their own choice,
so the same rules serve addresses in a store and any other names of storage.

Loose equality never fails. A number meets a text through its canonical text (no text is ever read
as a number), a boolean meets a number through the number's truthiness, and any other mixture is
unequal.
-/

set_option autoImplicit false

namespace LooseValue

def booleanText (b : Bool) : List Char := if b then "true".toList else "false".toList

/-- What comparison sees of a payload, with identities from `ι`. -/
inductive Primitive (ι : Type) where
  | boolean (b : Bool)
  | number (x : Binary64)
  | text (s : String)
  | object (identity : ι)
  deriving DecidableEq

namespace Primitive

variable {ι κ : Type}

/-- The same primitive with its identity renamed. -/
def map (rename : ι → κ) : Primitive ι → Primitive κ
  | .boolean b => .boolean b
  | .number x => .number x
  | .text s => .text s
  | .object identity => .object (rename identity)

def looseEq [DecidableEq ι] : Primitive ι → Primitive ι → Bool
  | .boolean a, .boolean b => a == b
  | .number x, .number y => x.numericEq y
  | .text s, .text t => s == t
  | .number x, .text s => numberText x == s
  | .text s, .number x => numberText x == s
  | .boolean b, .number x => b == !x.isZero
  | .number x, .boolean b => b == !x.isZero
  | .object a, .object b => a == b
  | _, _ => false

/-- Strict equality: the same sort of primitive with an equal content. -/
def strictEq [DecidableEq ι] : Primitive ι → Primitive ι → Bool
  | .boolean a, .boolean b => a == b
  | .number x, .number y => x.numericEq y
  | .text s, .text t => s == t
  | .object a, .object b => a == b
  | _, _ => false

/-- The detailed text of a primitive whose identities are numbers. -/
def detail : Primitive Nat → List Char
  | .boolean b => "Boolean(".toList ++ booleanText b ++ [')']
  | .number x => "Number(".toList ++ x.detail ++ [')']
  | .text s => "Text(".toList ++ quoted s.toList ++ [')']
  | .object identity => "Object(".toList ++ Nat.toDigits 10 identity ++ [')']

theorem looseEq_comm [DecidableEq ι] : ∀ a b : Primitive ι, a.looseEq b = b.looseEq a
  | .boolean _, .boolean _ => Bool.beq_comm
  | .number x, .number y => Binary.numericEq_comm x y
  | .text _, .text _ => Bool.beq_comm
  | .object _, .object _ => Bool.beq_comm
  | .boolean _, .number _ | .number _, .boolean _ => rfl
  | .number _, .text _ | .text _, .number _ => rfl
  | .boolean _, .text _ | .text _, .boolean _ => rfl
  | .object _, .boolean _ | .boolean _, .object _ => rfl
  | .object _, .number _ | .number _, .object _ => rfl
  | .object _, .text _ | .text _, .object _ => rfl

end Primitive

end LooseValue
