import LooseValue.Store
import LooseValue.Shape

/-!
# Typing of stored content

A payload has a kind relative to a store typing, which assigns to an address the kind of the handles
to it: a reference to a cell with its payload type, or a sequence with its item type. A value has
the kinds of a list if its active position is one of the list and its payload has the kind there. A
store is well typed if every live block holds what the handles to it promise.
-/

set_option autoImplicit false

namespace LooseValue

/-- The kind of the handles to an address. -/
abbrev StoreTyping : Type := Address → Option Kind

inductive Payload.HasKind (typing : StoreTyping) : Payload → Kind → Prop where
  | boolean {b : Bool} : HasKind typing (.boolean b) .boolean
  | number {x : Binary64} : HasKind typing (.number x) .number
  | text {s : String} : HasKind typing (.text s) .text
  | shared {cell : Address} {payload : Ty} :
      typing cell = some (.shared payload) → HasKind typing (.shared cell) (.shared payload)
  | sequence {buffer : Address} {payload : Ty} :
      typing buffer = some (.sequence payload) → HasKind typing (.sequence buffer) (.sequence payload)

inductive Value.HasKinds (typing : StoreTyping) (kinds : List Kind) : Value → Prop where
  | undefined : HasKinds typing kinds .undefined
  | active {position : Nat} {payload : Payload} {kind : Kind} :
      kinds[position]? = some kind → payload.HasKind typing kind →
      HasKinds typing kinds (.active ⟨position, payload⟩)

inductive Item.HasType (typing : StoreTyping) : Item → Ty → Prop where
  | plain {payload : Payload} {kind : Kind} :
      payload.HasKind typing kind → HasType typing (.plain payload) (.kind kind)
  | value {value : Value} {type : Ty} :
      type.isValue = true → value.HasKinds typing type.members → HasType typing (.value value) type

/-- A result of a shape. No result is of the shape of an access that is not supported. -/
inductive Shape.Holds (typing : StoreTyping) : Shape → Item → Prop where
  | some {type : Ty} {item : Item} : item.HasType typing type → Holds typing (some type) item

inductive Block.HasKind (typing : StoreTyping) : Block → Kind → Prop where
  | cell {content : Item} {payload : Ty} :
      content.HasType typing payload → HasKind typing (.cell content) (.shared payload)
  | buffer {items : List Item} {payload : Ty} :
      (∀ item ∈ items, item.HasType typing payload) →
      HasKind typing (.buffer items) (.sequence payload)

/-- Every live block holds what the handles to it promise. -/
def Store.WellTyped (typing : StoreTyping) (store : Store) : Prop :=
  ∀ entry ∈ store.entries, ∃ kind, typing entry.address = some kind ∧ entry.block.HasKind typing kind

variable {typing : StoreTyping}

@[simp] theorem Shape.holds_some {type : Ty} {item : Item} :
    Shape.Holds typing (some type) item ↔ item.HasType typing type := by
  constructor
  · intro held
    cases held with
    | some typed => exact typed
  · exact .some

@[simp] theorem Shape.not_holds_none {item : Item} : ¬ Shape.Holds typing none item := by
  intro held
  cases held

namespace Value

theorem HasKinds.inv {kinds : List Kind} {position : Nat} {payload : Payload}
    (typed : HasKinds typing kinds (.active ⟨position, payload⟩)) :
    ∃ kind, kinds[position]? = some kind ∧ payload.HasKind typing kind := by
  cases typed with
  | active found typed => exact ⟨_, found, typed⟩

theorem HasKinds.position_lt {kinds : List Kind} {alternative : Alternative}
    (typed : HasKinds typing kinds (.active alternative)) : alternative.position < kinds.length := by
  obtain ⟨kind, found, _⟩ := typed.inv
  exact (List.getElem?_eq_some_iff.mp found).1

end Value

/-- An item read as a value has the kinds of its type's members. -/
theorem Item.HasType.toValue {item : Item} {type : Ty} (typed : item.HasType typing type) :
    item.toValue.HasKinds typing type.members := by
  cases typed with
  | plain typed => exact .active rfl typed
  | value _ typed => exact typed

theorem Item.HasType.value_inv {item : Item} {kinds : List Kind}
    (typed : item.HasType typing (.value kinds)) :
    ∃ value, item = .value value ∧ value.HasKinds typing kinds := by
  cases typed with
  | value _ typed => exact ⟨_, rfl, typed⟩

end LooseValue
