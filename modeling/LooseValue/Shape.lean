import LooseValue.Kind

/-!
# Shapes of accesses

What dereferencing or indexing yields depends on the list of kinds only. Each kind contributes the
shape of its own result: nothing, or a type. Shapes are merged along the list; as soon as two
results are possible the merged result is a value, whose list is the concatenation of what both
sides contribute. A value type contributes its members, so no value ever stands directly inside a
value. Kinds are concatenated and not deduplicated.
-/

set_option autoImplicit false

namespace LooseValue

/-- The type of a result, or nothing where the access is not supported. -/
abbrev Shape : Type := Option Ty

namespace Kind

/-- What dereferencing a payload of the kind yields. -/
def referentShape : Kind → Shape
  | .shared payload => some payload
  | _ => none

/-- What indexing a payload of the kind yields. -/
def elementShape : Kind → Shape
  | .sequence payload => some payload
  | _ => none

end Kind

namespace Shape

/-- The shape of a result that comes from either of two sides. -/
def merge : Shape → Shape → Shape
  | none, right => right
  | left, none => left
  | some left, some right => some (.value (left.members ++ right.members))

/-- The merged shape of a whole list, where `contribution` is what each kind yields by itself. -/
def resolve (contribution : Kind → Shape) : List Kind → Shape
  | [] => none
  | kind :: kinds => (contribution kind).merge (resolve contribution kinds)

/-- What dereferencing a value over a list of kinds yields. -/
def referent (kinds : List Kind) : Shape := resolve Kind.referentShape kinds

/-- What indexing a value over a list of kinds yields. -/
def element (kinds : List Kind) : Shape := resolve Kind.elementShape kinds

@[simp] theorem none_merge (right : Shape) : merge none right = right := rfl

@[simp] theorem merge_none (left : Shape) : merge left none = left := by
  cases left <;> rfl

end Shape

end LooseValue
