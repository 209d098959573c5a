import LooseValue.Machine.Op
import LooseValue.Machine.State
import LooseValue.Store.Access

/-!
# Steps and runs

One step takes a state and an operation to the next state and a report. Arguments are built before
the operation starts, so an operation that is refused has to drop what it was given. An operation
that does not fit the names and types of the state changes nothing.
-/

set_option autoImplicit false

namespace LooseValue

namespace State

/-- The outcome of an operation on the value of a name. -/
def valueStep? (allocator : Allocator) (state : State) (name : String) (type : Ty)
    (kinds : List Kind) (value : Value) : ValueOp → Option (State × Report)
  | .summary => some (state, .answer (.summary (.ofValue state.store value)))
  | .set position literal => do
      let kind ← kinds[position]?
      let (payload, store) ← literal.buildPayload allocator state.registers kind state.store
      let changed := Value.active ⟨position, payload⟩
      let next := { state with store }.put name ⟨type, .value changed⟩
      let answer := Answer.content (next.store.tree? (.value changed))
      return (next, ⟨.ok answer, [.replaced value.kindName changed.kindName]⟩)
  | .clear =>
      let next := state.put name ⟨type, .value .undefined⟩
      let answer := Answer.content (next.store.tree? (.value .undefined))
      let events := if value.isUndefined then [] else [.cleared value.kindName]
      some (next, ⟨.ok answer, events⟩)
  | .take target =>
      let emptied := state.assign name ⟨type, .value .undefined⟩
      some (emptied.produce target ⟨type, .value value⟩)
  | .rewrap target => some ((state.retain (.value value)).produce target ⟨type, .value value⟩)
  | .get position target => do
      let kind ← kinds[position]?
      match value.payloadAt? position with
      | none => return (state, .answer (.selection none))
      | some payload =>
          let kept := state.retain (.plain payload)
          let found := (kind, kept.store.tree? (.plain payload))
          return (kept.deliver target ⟨.kind kind, .plain payload⟩,
            .answer (.selection (some found)))
  | .overwrite position literal => do
      let kind ← kinds[position]?
      let (payload, store) ← literal.buildPayload allocator state.registers kind state.store
      match value.payloadAt? position with
      | none =>
          let next := { state with store }.release (.plain payload)
          return (next, .answer (.overwritten none (next.store.tree? (.value value))))
      | some previous =>
          let changed := Value.active ⟨position, payload⟩
          let next := { state with store }.put name ⟨type, .value changed⟩
          return (next, .answer (.overwritten (some (store.tree? (.plain previous)))
            (next.store.tree? (.value changed))))
  | .referent target =>
      match Shape.referent kinds with
      | none => some (state, .failure .unresolved)
      | some result => some (state.copyOut target result (state.store.referent kinds value))
  | .element index target =>
      match Shape.element kinds with
      | none => some (state, .failure .unresolved)
      | some result => some (state.copyOut target result (state.store.element kinds index value))
  | .setElement index literal =>
      match Shape.element kinds with
      | none => some (state, .failure .unresolved)
      | some result => do
          let (item, store) ← literal.build allocator state.registers result state.store
          let (store, access) := store.setElement kinds index item value
          let outcome :=
            match access.outcome with
            | .ok () => .ok (.content (store.tree? (.value value)))
            | .error error => .error (.access error)
          return ({ state with store }, ⟨outcome, access.events⟩)
  | .compare scalar =>
      let equal := value.equalsPrimitive (.ofScalar scalar)
      some (state, .answer (.comparison equal equal))

/-- An item of a cell exchanged for a new one. -/
def exchangeContent? (allocator : Allocator) (state : State) (payload : Ty) (cell : Address)
    (literal : Literal) (target : Option String) : Option (State × Report) := do
  let (item, store) ← literal.build allocator state.registers payload state.store
  let next := { state with store := store.write cell (.cell item) }
  return next.produce target ⟨payload, store.content cell⟩

/-- The outcome of an operation on a reference to a cell. -/
def sharedStep? (allocator : Allocator) (state : State) (payload : Ty) (cell : Address) :
    SharedOp → Option (State × Report)
  | .get target => some (state.copyOut target payload (.grant (state.store.content cell)))
  | .replace literal target => state.exchangeContent? allocator payload cell literal target
  | .update literal target => state.exchangeContent? allocator payload cell literal target
  | .write literal => do
      let (item, store) ← literal.build allocator state.registers payload state.store
      let next := { state with store := store.write cell (.cell item) }.release (store.content cell)
      return (next, .answer (.content (next.store.tree? (.plain (.shared cell)))))
  | .same other =>
      match state.register? other with
      | some ⟨type, .plain (.shared otherCell)⟩ =>
          if type = .kind (.shared payload)
          then some (state, .answer (.truth (cell == otherCell))) else none
      | _ => none
  | .holders => some (state, .answer (.count (state.store.holders cell)))

/-- An item of a buffer exchanged for a new one. -/
def exchangeItem? (allocator : Allocator) (state : State) (payload : Ty) (buffer : Address)
    (index : Nat) (literal : Literal) (target : Option String) : Option (State × Report) := do
  let (item, store) ← literal.build allocator state.registers payload state.store
  let (store, access) := store.exchange buffer index item
  match access.outcome with
  | .ok previous =>
      let (next, report) := { state with store }.produce target ⟨payload, previous⟩
      return (next, { report with events := access.events })
  | .error error => return ({ state with store }, ⟨.error (.access error), access.events⟩)

/-- The outcome of an operation on a reference to a buffer. -/
def sequenceStep? (allocator : Allocator) (state : State) (payload : Ty) (buffer : Address) :
    SequenceOp → Option (State × Report)
  | .length => some (state, .answer (.length (state.store.items buffer).length))
  | .get index target => some (state.copyOut target payload (state.store.itemAt buffer index))
  | .set index literal target =>
      state.exchangeItem? allocator payload buffer index literal target
  | .update index literal target =>
      state.exchangeItem? allocator payload buffer index literal target
  | .push literal => do
      let (item, store) ← literal.build allocator state.registers payload state.store
      let store := store.write buffer (.buffer (Sequence.push (store.items buffer) item))
      return ({ state with store },
        .answer (.content (store.tree? (.plain (.sequence buffer)))))
  | .pop target =>
      match Sequence.pop (state.store.items buffer) with
      | (_, none) => some (state, .answer .done)
      | (items, some item) =>
          let store := state.store.write buffer (.buffer items)
          some ({ state with store }.produce target ⟨payload, item⟩)
  | .toList => some (state, .answer (.contents ((state.store.items buffer).map state.store.tree?)))
  | .same other =>
      match state.register? other with
      | some ⟨type, .plain (.sequence otherBuffer)⟩ =>
          if type = .kind (.sequence payload)
          then some (state, .answer (.truth (buffer == otherBuffer))) else none
      | _ => none
  | .holders => some (state, .answer (.count (state.store.holders buffer)))

/-- The profile of a payload. To tell whether a sequence has elements its first one is read, which
is an access like any other. -/
def profileReport (state : State) (payload : Payload) : Report :=
  let events :=
    match payload with
    | .sequence buffer => (state.store.itemAt buffer 0).events
    | _ => []
  ⟨.ok (.profile (.ofPayload state.store payload)), events⟩

/-- The outcome of an operation, if it fits the names and types of the state. -/
def step? (allocator : Allocator) (state : State) : Op → Option (State × Report)
  | .create target type literal => do
      let (item, store) ← literal.build allocator state.registers type state.store
      return { state with store }.produce (some target) ⟨type, item⟩
  | .clone source target => do
      let register ← state.register? source
      return (state.retain register.item).produce (some target) register
  | .drop source => do
      let _ ← state.register? source
      return (state.remove source, .answer .done)
  | .compare left right => do
      let (_, _, a) ← state.value? left
      let (_, _, b) ← state.value? right
      return (state, .answer (.comparison (a.looseEq b) (b.looseEq a)))
  | .profile source =>
      match state.register? source with
      | some ⟨_, .plain payload⟩ => some (state, state.profileReport payload)
      | _ => none
  | .value source op => do
      let (type, kinds, value) ← state.value? source
      state.valueStep? allocator source type kinds value op
  | .shared source op =>
      match state.register? source with
      | some ⟨.kind (.shared payload), .plain (.shared cell)⟩ =>
          state.sharedStep? allocator payload cell op
      | _ => none
  | .sequence source op =>
      match state.register? source with
      | some ⟨.kind (.sequence payload), .plain (.sequence buffer)⟩ =>
          state.sequenceStep? allocator payload buffer op
      | _ => none

/-- The next state and the report of an operation. -/
def step (allocator : Allocator) (state : State) (op : Op) : State × Report :=
  (state.step? allocator op).getD (state, .failure .malformed)

/-- The last state and the reports of a list of operations. -/
def run (allocator : Allocator) (state : State) : List Op → State × List Report
  | [] => (state, [])
  | op :: ops =>
      let (next, report) := state.step allocator op
      let (last, reports) := next.run allocator ops
      (last, report :: reports)

end State

end LooseValue
