import LooseValue.Shape
import LooseValue.Value

/-!
# Embeddings into a merged shape

A result of one side of a merge is widened into the merged result, and a merged result is narrowed
to a side, which fails where it holds what that side cannot produce. An undefined result is one of
every side that is a value type. Along a whole list the two become `embed` and `project`, which
take a result of the kind at one position to the result of the list, and back.
-/

set_option autoImplicit false

namespace LooseValue

/-- A value over the members of a type, read as an item of that type. A plain kind has no
undefined item. -/
def Ty.ofValue? : Ty → Value → Option Item
  | .kind _, .undefined => none
  | .kind _, .active alternative => some (.plain alternative.payload)
  | .value _, v => some (.value v)
  | .dynamic, v => some (.value v)

namespace Shape

/-- A result of the left side as a merged result. -/
def widenLeft : (left right : Shape) → Item → Item
  | some _, some _, result => .value (result.toValue.retag .appendLeft)
  | _, _, result => result

def widenRight : (left right : Shape) → Item → Item
  | some left, some _, result => .value (result.toValue.retag (.appendRight left.members))
  | _, _, result => result

/-- A merged result as a result of the left side. -/
def narrowLeft : (left right : Shape) → Item → Option Item
  | none, _, _ => none
  | some _, none, result => some result
  | some _, some _, .plain _ => none
  | some left, some _, .value .undefined => left.ofValue? .undefined
  | some left, some _, .value (.active alternative) =>
      match alternative.split left.members with
      | .inl alternative => left.ofValue? (.active alternative)
      | .inr _ => none

def narrowRight : (left right : Shape) → Item → Option Item
  | none, _, result => some result
  | some _, none, _ => none
  | some _, some _, .plain _ => none
  | some _, some right, .value .undefined => right.ofValue? .undefined
  | some left, some right, .value (.active alternative) =>
      match alternative.split left.members with
      | .inl _ => none
      | .inr alternative => right.ofValue? (.active alternative)

/-- A result of the kind at a position as a result of the whole list. -/
def embed (contribution : Kind → Shape) : List Kind → (position : Nat) → Item → Item
  | [], _, result => result
  | kind :: kinds, 0, result =>
      widenLeft (contribution kind) (resolve contribution kinds) result
  | kind :: kinds, position + 1, result =>
      widenRight (contribution kind) (resolve contribution kinds)
        (embed contribution kinds position result)

/-- A result of the whole list as a result of the kind at a position. -/
def project (contribution : Kind → Shape) : List Kind → (position : Nat) → Item → Option Item
  | [], _, _ => none
  | kind :: kinds, 0, result =>
      narrowLeft (contribution kind) (resolve contribution kinds) result
  | kind :: kinds, position + 1, result =>
      (narrowRight (contribution kind) (resolve contribution kinds) result).bind
        (project contribution kinds position)

end Shape

end LooseValue
