import LooseValue.Machine.Answer
import LooseValue.Machine.Literal

/-!
# States

A state is a store and the named items. Naming an item drops what the name held before, after the
new item is in place.
-/

set_option autoImplicit false

namespace LooseValue

/-- A store with the items that are named. -/
structure State where
  store : Store
  registers : List (String × Register)

namespace State

def initial : State := ⟨.empty, []⟩

/-- The item of a name, with its type. -/
def register? (state : State) (name : String) : Option Register := state.registers.lookup name

/-- The value of a name, with its type and its list of kinds. -/
def value? (state : State) (name : String) : Option (Ty × List Kind × Value) :=
  match state.register? name with
  | some ⟨type, .value value⟩ => type.kinds?.map fun kinds => (type, kinds, value)
  | _ => none

/-- The handles that the item of a name holds. -/
def heldBy (state : State) (name : String) : List Address :=
  match state.register? name with
  | some register => register.item.handles
  | none => []

/-- The state with a name bound anew. What the name held before is not dropped. -/
def assign (state : State) (name : String) (register : Register) : State :=
  { state with
    registers := (name, register) :: state.registers.eraseP fun entry => entry.1 == name }

/-- The state with a name bound anew, and what the name held before dropped. -/
def put (state : State) (name : String) (register : Register) : State :=
  { state.assign name register with store := state.store.release (state.heldBy name) }

/-- The state without a name, and what the name held dropped. -/
def remove (state : State) (name : String) : State where
  store := state.store.release (state.heldBy name)
  registers := state.registers.eraseP fun entry => entry.1 == name

/-- The state with one more copy of an item. -/
def retain (state : State) (item : Item) : State :=
  { state with store := state.store.retain item.handles }

/-- The state with one copy less of an item. -/
def release (state : State) (item : Item) : State :=
  { state with store := state.store.release item.handles }

/-- The state in which an item at hand is stored under the target, or dropped if there is none. -/
def deliver (state : State) (target : Option String) (register : Register) : State :=
  match target with
  | some name => state.put name register
  | none => state.release register.item

/-- An item at hand as the answer of an operation. -/
def produce (state : State) (target : Option String) (register : Register) : State × Report :=
  (state.deliver target register,
    .answer (.item register.type (state.store.tree? register.item)))

/-- The copy of an item that was read as the answer of an operation, if it could be read. -/
def copyOut (state : State) (target : Option String) (type : Ty) (access : Logged Item) :
    State × Report :=
  match access.outcome with
  | .ok item =>
      let (next, report) := (state.retain item).produce target ⟨type, item⟩
      (next, { report with events := access.events })
  | .error error => (state, ⟨.error (.access error), access.events⟩)

end State

end LooseValue
