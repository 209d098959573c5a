/-!
# Kinds and types

A kind is what one payload can be. A value type is a list of kinds, and a value of it holds at
most one payload, tagged by its position in the list; so the same kind may occur twice in a list
and still be told apart. Behind a shared reference or inside a sequence there may be a plain kind
or again a value type. Types are data here: nothing bounds the length of a list or the nesting.
-/

set_option autoImplicit false

namespace LooseValue

mutual

/-- What a single payload can be. -/
inductive Kind where
  | boolean
  | number
  | text
  /-- A reference to a cell that holds one item of the payload type. -/
  | shared (payload : Ty)
  /-- A reference to a buffer that holds items of the payload type. -/
  | sequence (payload : Ty)

/-- The type of an item: a plain kind, or a value over a list of kinds. -/
inductive Ty where
  | kind (kind : Kind)
  | value (kinds : List Kind)
  /-- The value type that contains itself: its cells and buffers hold dynamic values again. -/
  | dynamic

end

mutual

def Kind.same : Kind → Kind → Bool
  | .boolean, .boolean => true
  | .number, .number => true
  | .text, .text => true
  | .shared s, .shared t => s.same t
  | .sequence s, .sequence t => s.same t
  | _, _ => false

def Ty.same : Ty → Ty → Bool
  | .kind k, .kind l => k.same l
  | .value ks, .value ls => Kind.sameAll ks ls
  | .dynamic, .dynamic => true
  | _, _ => false

/-- Whether two lists of kinds are the same, position by position. -/
def Kind.sameAll : List Kind → List Kind → Bool
  | [], [] => true
  | k :: ks, l :: ls => k.same l && Kind.sameAll ks ls
  | _, _ => false

end

mutual

theorem Kind.same_iff : ∀ k l : Kind, k.same l = true ↔ k = l
  | .shared s, .shared t => by simp [Kind.same, Ty.same_iff s t]
  | .sequence s, .sequence t => by simp [Kind.same, Ty.same_iff s t]
  | .boolean, l => by cases l <;> simp [Kind.same]
  | .number, l => by cases l <;> simp [Kind.same]
  | .text, l => by cases l <;> simp [Kind.same]
  | .shared _, .boolean | .shared _, .number | .shared _, .text => by simp [Kind.same]
  | .shared _, .sequence _ | .sequence _, .shared _ => by simp [Kind.same]
  | .sequence _, .boolean | .sequence _, .number | .sequence _, .text => by simp [Kind.same]

theorem Ty.same_iff : ∀ s t : Ty, s.same t = true ↔ s = t
  | .kind k, .kind l => by simp [Ty.same, Kind.same_iff k l]
  | .value ks, .value ls => by simp [Ty.same, Kind.sameAll_iff ks ls]
  | .dynamic, t => by cases t <;> simp [Ty.same]
  | .kind _, .value _ | .kind _, .dynamic => by simp [Ty.same]
  | .value _, .kind _ | .value _, .dynamic => by simp [Ty.same]

theorem Kind.sameAll_iff : ∀ ks ls : List Kind, Kind.sameAll ks ls = true ↔ ks = ls
  | [], [] => by simp [Kind.sameAll]
  | k :: ks, l :: ls => by simp [Kind.sameAll, Kind.same_iff k l, Kind.sameAll_iff ks ls]
  | [], _ :: _ | _ :: _, [] => by simp [Kind.sameAll]

end

instance : DecidableEq Kind := fun k l => decidable_of_iff _ (Kind.same_iff k l)

instance : DecidableEq Ty := fun s t => decidable_of_iff _ (Ty.same_iff s t)

namespace Kind

/-- The kinds that a dynamic value may hold. -/
def dynamicList : List Kind := [.boolean, .number, .text, .shared .dynamic, .sequence .dynamic]

end Kind

namespace Ty

/-- The list of kinds of a value type, and nothing for a plain kind. -/
def kinds? : Ty → Option (List Kind)
  | .kind _ => none
  | .value ks => some ks
  | .dynamic => some Kind.dynamicList

/-- The kinds that a type contributes when it is spliced into a list. -/
def members : Ty → List Kind
  | .kind k => [k]
  | .value ks => ks
  | .dynamic => Kind.dynamicList

/-- The number of positions that a type takes when it is spliced into a list. -/
def width (t : Ty) : Nat := t.members.length

/-- Whether an item of the type can be undefined. -/
def isValue : Ty → Bool
  | .kind _ => false
  | .value _ => true
  | .dynamic => true

end Ty

end LooseValue
