import LooseValue.Machine.Step
import LooseValue.Proofs.Access.Writing
import LooseValue.Proofs.Projection

/-!
# What a step comes to

The step functions are taken apart here once and for all. A step looks at the state and answers; or
it has an item in hand, new, copied, or taken from its place, which it delivers to its target; or it
changes a value in its slot; or it writes a block and drops what was there; or it drops an argument
that was refused. Each case says what was built for it and which block it wrote. What a step may
break or must keep is shown case by case of the outcomes, with no step function in sight.
-/

set_option autoImplicit false

namespace LooseValue

/-- The operations that write through a handle to a cell or a buffer. -/
def Op.isWrite : Op → Bool
  | .shared _ (.replace ..) | .shared _ (.update ..) | .shared _ (.write _) => true
  | .sequence _ (.set ..) | .sequence _ (.update ..) | .sequence _ (.push _) => true
  | .sequence _ (.pop _) | .value _ (.setElement ..) => true
  | _ => false

/-! ## Accesses -/

namespace Store

variable (store : Store)

theorem itemAt_cases (buffer : Address) (index : Nat) :
    (∃ item, (store.items buffer)[index]? = some item ∧ store.itemAt buffer index = .grant item) ∨
      ∃ error, store.itemAt buffer index = .refuse error := by
  cases stored : (store.items buffer)[index]? with
  | some item => exact .inl ⟨item, rfl, Sequence.get_of_getElem? stored⟩
  | none => exact .inr ⟨_, Sequence.get_of_le (List.getElem?_eq_none_iff.mp stored)⟩

theorem referent_cases (kinds : List Kind) (value : Value) :
    (∃ item, store.referent kinds value = .grant item) ∨
      ∃ error, store.referent kinds value = .refuse error := by
  cases value with
  | undefined => exact .inr ⟨_, rfl⟩
  | active alternative =>
      obtain ⟨position, payload⟩ := alternative
      cases payload with
      | shared cell => exact .inl ⟨_, rfl⟩
      | boolean | number | text | sequence => exact .inr ⟨_, rfl⟩

theorem element_cases (kinds : List Kind) (index : Nat) (value : Value) :
    (∃ item, store.element kinds index value = .grant item) ∨
      ∃ error, store.element kinds index value = .refuse error := by
  cases value with
  | undefined => exact .inr ⟨_, rfl⟩
  | active alternative =>
      obtain ⟨position, payload⟩ := alternative
      cases payload with
      | boolean | number | text | shared => exact .inr ⟨_, rfl⟩
      | sequence buffer =>
          rcases store.itemAt_cases buffer index with ⟨item, _, granted⟩ | ⟨error, refused⟩
          · exact .inl ⟨_, by rw [element, granted]; rfl⟩
          · exact .inr ⟨error, by rw [element, refused]; rfl⟩

/-- A write of an element goes to an item of the active sequence, or it is refused and the element is
dropped. -/
theorem setElement_cases (kinds : List Kind) (index : Nat) (element : Item) (value : Value) :
    (∃ position buffer item previous, value = .active ⟨position, .sequence buffer⟩ ∧
      Shape.project Kind.elementShape kinds position element = some item ∧
      (store.items buffer)[index]? = some previous) ∨
    ∃ error, store.setElement kinds index element value =
      (store.release element.handles, .refuse error) := by
  cases value with
  | undefined => exact .inr ⟨_, rfl⟩
  | active alternative =>
      obtain ⟨position, payload⟩ := alternative
      cases payload with
      | boolean | number | text | shared => exact .inr ⟨_, rfl⟩
      | sequence buffer =>
          cases projected : Shape.project Kind.elementShape kinds position element with
          | none => exact .inr ⟨_, setElement_of_refused projected⟩
          | some item =>
              cases stored : (store.items buffer)[index]? with
              | some previous => exact .inl ⟨position, buffer, item, previous, rfl, projected, stored⟩
              | none =>
                  have beyond := setElement_of_le projected (List.getElem?_eq_none_iff.mp stored)
                  rw [Shape.handles_project projected] at beyond
                  exact .inr ⟨_, beyond⟩

end Store

namespace State

/-! ## Items in hand -/

/-- The item that an operation has in hand for its target, with its type, and the state at that
moment: arguments have been built, a copy is counted, and an overwritten block holds its new
content. -/
inductive Carries (allocator : Allocator) (state : State) :
    Op → Option String → State → Register → Prop where
  | create {target : String} {type : Ty} {literal : Literal} {item : Item} {store : Store} :
      literal.build allocator state.registers type state.store = some (item, store) →
      Carries allocator state (.create target type literal) (some target) { state with store }
        ⟨type, item⟩
  | clone {source target : String} {register : Register} :
      state.register? source = some register →
      Carries allocator state (.clone source target) (some target) (state.retain register.item)
        register
  | take {name : String} {type : Ty} {kinds : List Kind} {value : Value} {target : Option String} :
      state.value? name = some (type, kinds, value) →
      Carries allocator state (.value name (.take target)) target
        (state.assign name ⟨type, .value .undefined⟩) ⟨type, .value value⟩
  | rewrap {name : String} {type : Ty} {kinds : List Kind} {value : Value}
      {target : Option String} :
      state.value? name = some (type, kinds, value) →
      Carries allocator state (.value name (.rewrap target)) target (state.retain (.value value))
        ⟨type, .value value⟩
  | payload {name : String} {type : Ty} {kinds : List Kind} {value : Value} {position : Nat}
      {kind : Kind} {payload : Payload} {target : Option String} :
      state.value? name = some (type, kinds, value) → kinds[position]? = some kind →
      value.payloadAt? position = some payload →
      Carries allocator state (.value name (.get position target)) target
        (state.retain (.plain payload)) ⟨.kind kind, .plain payload⟩
  | referent {name : String} {type result : Ty} {kinds : List Kind} {value : Value} {item : Item}
      {target : Option String} :
      state.value? name = some (type, kinds, value) → Shape.referent kinds = some result →
      state.store.referent kinds value = .grant item →
      Carries allocator state (.value name (.referent target)) target (state.retain item)
        ⟨result, item⟩
  | element {name : String} {type result : Ty} {kinds : List Kind} {value : Value} {index : Nat}
      {item : Item} {target : Option String} :
      state.value? name = some (type, kinds, value) → Shape.element kinds = some result →
      state.store.element kinds index value = .grant item →
      Carries allocator state (.value name (.element index target)) target (state.retain item)
        ⟨result, item⟩
  | content {name : String} {payload : Ty} {cell : Address} {target : Option String} :
      state.register? name = some ⟨.kind (.shared payload), .plain (.shared cell)⟩ →
      Carries allocator state (.shared name (.get target)) target
        (state.retain (state.store.content cell)) ⟨payload, state.store.content cell⟩
  | exchangeContent {name : String} {payload : Ty} {cell : Address} {literal : Literal}
      {item : Item} {store : Store} {target : Option String} {op : SharedOp} :
      state.register? name = some ⟨.kind (.shared payload), .plain (.shared cell)⟩ →
      literal.build allocator state.registers payload state.store = some (item, store) →
      op ∈ [.replace literal target, .update literal target] →
      Carries allocator state (.shared name op) target
        { state with store := store.write cell (.cell item) } ⟨payload, store.content cell⟩
  | item {name : String} {payload : Ty} {buffer : Address} {index : Nat} {item : Item}
      {target : Option String} :
      state.register? name = some ⟨.kind (.sequence payload), .plain (.sequence buffer)⟩ →
      (state.store.items buffer)[index]? = some item →
      Carries allocator state (.sequence name (.get index target)) target (state.retain item)
        ⟨payload, item⟩
  | exchangeItem {name : String} {payload : Ty} {buffer : Address} {index : Nat} {literal : Literal}
      {item previous : Item} {store : Store} {target : Option String} {op : SequenceOp} :
      state.register? name = some ⟨.kind (.sequence payload), .plain (.sequence buffer)⟩ →
      literal.build allocator state.registers payload state.store = some (item, store) →
      (store.items buffer)[index]? = some previous →
      op ∈ [.set index literal target, .update index literal target] →
      Carries allocator state (.sequence name op) target
        { state with store := store.write buffer (.buffer ((store.items buffer).set index item)) }
        ⟨payload, previous⟩
  | pop {name : String} {payload : Ty} {buffer : Address} {item : Item} {target : Option String} :
      state.register? name = some ⟨.kind (.sequence payload), .plain (.sequence buffer)⟩ →
      (state.store.items buffer).getLast? = some item →
      Carries allocator state (.sequence name (.pop target)) target
        { state with
          store := state.store.write buffer (.buffer (state.store.items buffer).dropLast) }
        ⟨payload, item⟩

/-! ## Outcomes -/

/-- The next state and the report of an operation, by what it came to. -/
inductive Outcome (allocator : Allocator) (state : State) : Op → State → Report → Prop where
  /-- The operation does not fit the state, or no kind of the list has the access. -/
  | unfit {op : Op} {failure : Failure} : (∀ error, failure ≠ .access error) →
      Outcome allocator state op state (.failure failure)
  | answered {op : Op} {answer : Answer} : op.isWrite = false →
      Outcome allocator state op state (.answer answer)
  | profiled {source : String} {payload : Payload} :
      Outcome allocator state (.profile source) state (state.profileReport payload)
  /-- There is nothing left to pop. -/
  | exhausted {name : String} {target : Option String} :
      Outcome allocator state (.sequence name (.pop target)) state (.answer .done)
  | readRefused {op : Op} {error : AccessError} : op.isWrite = false →
      Outcome allocator state op state ⟨.error (.access error), [.refused error]⟩
  | delivered {op : Op} {target : Option String} {middle : State} {register : Register}
      {answer : Answer} : Carries allocator state op target middle register → answer ≠ .done →
      Outcome allocator state op (middle.deliver target register) (.answer answer)
  | dropped {name : String} {register : Register} : state.register? name = some register →
      Outcome allocator state (.drop name) (state.remove name) (.answer .done)
  | cleared {name : String} {type : Ty} {kinds : List Kind} {value : Value} {answer : Answer}
      {events : List Event} :
      state.value? name = some (type, kinds, value) → (∀ error, .refused error ∉ events) →
      Outcome allocator state (.value name .clear) (state.put name ⟨type, .value .undefined⟩)
        ⟨.ok answer, events⟩
  | replaced {name : String} {type : Ty} {kinds : List Kind} {value : Value} {position : Nat}
      {kind : Kind} {literal : Literal} {payload : Payload} {store : Store} {op : ValueOp}
      {answer : Answer} {events : List Event} :
      state.value? name = some (type, kinds, value) → kinds[position]? = some kind →
      literal.buildPayload allocator state.registers kind state.store = some (payload, store) →
      op ∈ [.set position literal, .overwrite position literal] →
      (∀ error, .refused error ∉ events) →
      Outcome allocator state (.value name op)
        (put { state with store } name ⟨type, .value (.active ⟨position, payload⟩)⟩)
        ⟨.ok answer, events⟩
  /-- Another position is active, and the payload that was built is dropped. -/
  | overwriteMissed {name : String} {type : Ty} {kinds : List Kind} {value : Value} {position : Nat}
      {kind : Kind} {literal : Literal} {payload : Payload} {store : Store} {answer : Answer} :
      state.value? name = some (type, kinds, value) → kinds[position]? = some kind →
      literal.buildPayload allocator state.registers kind state.store = some (payload, store) →
      value.payloadAt? position = none →
      Outcome allocator state (.value name (.overwrite position literal))
        (release { state with store } (.plain payload)) (.answer answer)
  | elementWritten {name : String} {type result : Ty} {kinds : List Kind} {position index : Nat}
      {buffer : Address} {literal : Literal} {element item previous : Item} {store : Store}
      {answer : Answer} :
      state.value? name = some (type, kinds, .active ⟨position, .sequence buffer⟩) →
      Shape.element kinds = some result →
      literal.build allocator state.registers result state.store = some (element, store) →
      Shape.project Kind.elementShape kinds position element = some item →
      (store.items buffer)[index]? = some previous → answer ≠ .done →
      Outcome allocator state (.value name (.setElement index literal))
        (release
          { state with store := store.write buffer (.buffer ((store.items buffer).set index item)) }
          previous) (.answer answer)
  | elementRefused {name : String} {type result : Ty} {kinds : List Kind} {value : Value}
      {index : Nat} {literal : Literal} {element : Item} {store : Store} {error : AccessError} :
      state.value? name = some (type, kinds, value) → Shape.element kinds = some result →
      literal.build allocator state.registers result state.store = some (element, store) →
      store.setElement kinds index element value =
        (store.release element.handles, .refuse error) →
      Outcome allocator state (.value name (.setElement index literal))
        (release { state with store } element) ⟨.error (.access error), [.refused error]⟩
  | contentWritten {name : String} {payload : Ty} {cell : Address} {literal : Literal} {item : Item}
      {store : Store} {answer : Answer} :
      state.register? name = some ⟨.kind (.shared payload), .plain (.shared cell)⟩ →
      literal.build allocator state.registers payload state.store = some (item, store) →
      answer ≠ .done →
      Outcome allocator state (.shared name (.write literal))
        (release { state with store := store.write cell (.cell item) } (store.content cell))
        (.answer answer)
  | pushed {name : String} {payload : Ty} {buffer : Address} {literal : Literal} {item : Item}
      {store : Store} {answer : Answer} :
      state.register? name = some ⟨.kind (.sequence payload), .plain (.sequence buffer)⟩ →
      literal.build allocator state.registers payload state.store = some (item, store) →
      answer ≠ .done →
      Outcome allocator state (.sequence name (.push literal))
        { state with store := store.write buffer (.buffer (store.items buffer ++ [item])) }
        (.answer answer)
  | itemRefused {name : String} {payload : Ty} {buffer : Address} {index : Nat} {literal : Literal}
      {item : Item} {store : Store} {target : Option String} {op : SequenceOp} :
      state.register? name = some ⟨.kind (.sequence payload), .plain (.sequence buffer)⟩ →
      literal.build allocator state.registers payload state.store = some (item, store) →
      (store.items buffer).length ≤ index →
      op ∈ [.set index literal target, .update index literal target] →
      Outcome allocator state (.sequence name op) (release { state with store } item)
        ⟨.error (.access (.indexOutOfBounds index (store.items buffer).length)),
          [.refused (.indexOutOfBounds index (store.items buffer).length)]⟩

variable {allocator : Allocator} {state next : State} {name : String} {op : Op} {literal : Literal}
  {item previous : Item} {store : Store} {target : Option String} {report : Report}

section Value

variable {type : Ty} {kinds : List Kind} {value : Value}

theorem valueStep?_outcome {op : ValueOp} (named : state.value? name = some (type, kinds, value))
    (stepped : state.valueStep? allocator name type kinds value op = some (next, report)) :
    state.Outcome allocator (.value name op) next report := by
  cases op with
  | summary | compare =>
      cases stepped
      exact .answered rfl
  | set position literal =>
      simp only [valueStep?, Option.bind_eq_bind, Option.bind_eq_some_iff] at stepped
      obtain ⟨kind, found, ⟨payload, store⟩, built, same⟩ := stepped
      cases same
      exact .replaced named found built List.mem_cons_self (by simp)
  | clear =>
      cases stepped
      refine .cleared named ?_
      cases value <;> simp [Value.isUndefined]
  | take target =>
      cases stepped
      exact .delivered (.take named) (by simp)
  | rewrap target =>
      cases stepped
      exact .delivered (.rewrap named) (by simp)
  | get position target =>
      simp only [valueStep?, Option.bind_eq_bind, Option.bind_eq_some_iff] at stepped
      obtain ⟨kind, found, same⟩ := stepped
      split at same
      · cases same
        exact .answered rfl
      · next payload active =>
          cases same
          exact .delivered (.payload named found active) (by simp)
  | overwrite position literal =>
      simp only [valueStep?, Option.bind_eq_bind, Option.bind_eq_some_iff] at stepped
      obtain ⟨kind, found, ⟨payload, store⟩, built, same⟩ := stepped
      split at same
      · next inactive =>
          cases same
          exact .overwriteMissed named found built inactive
      · cases same
        exact .replaced named found built (by simp) (by simp)
  | referent target =>
      simp only [valueStep?] at stepped
      split at stepped
      · cases stepped
        exact .unfit (by simp)
      · next result resolved =>
          rcases state.store.referent_cases kinds value with ⟨item, granted⟩ | ⟨error, refused⟩
          · rw [granted] at stepped
            cases stepped
            exact .delivered (.referent named resolved granted) (by simp)
          · rw [refused] at stepped
            cases stepped
            exact .readRefused rfl
  | element index target =>
      simp only [valueStep?] at stepped
      split at stepped
      · cases stepped
        exact .unfit (by simp)
      · next result resolved =>
          rcases state.store.element_cases kinds index value with ⟨item, granted⟩ | ⟨error, refused⟩
          · rw [granted] at stepped
            cases stepped
            exact .delivered (.element named resolved granted) (by simp)
          · rw [refused] at stepped
            cases stepped
            exact .readRefused rfl
  | setElement index literal =>
      simp only [valueStep?] at stepped
      split at stepped
      · cases stepped
        exact .unfit (by simp)
      · next result resolved =>
          simp only [Option.bind_eq_bind, Option.bind_eq_some_iff] at stepped
          obtain ⟨⟨element, store⟩, built, same⟩ := stepped
          rcases store.setElement_cases kinds index element value with
            ⟨position, buffer, item, previous, rfl, projected, stored⟩ | ⟨error, refused⟩
          · simp only [Store.setElement_of_getElem? projected stored] at same
            cases same
            exact .elementWritten named resolved built projected stored (by simp)
          · simp only [refused] at same
            cases same
            exact .elementRefused named resolved built refused

end Value

theorem sharedStep?_outcome {payload : Ty} {cell : Address} {op : SharedOp}
    (named : state.register? name = some ⟨.kind (.shared payload), .plain (.shared cell)⟩)
    (stepped : state.sharedStep? allocator payload cell op = some (next, report)) :
    state.Outcome allocator (.shared name op) next report := by
  cases op with
  | get target =>
      cases stepped
      exact .delivered (.content named) (by simp)
  | replace literal target | update literal target =>
      simp only [sharedStep?, exchangeContent?, Option.bind_eq_bind,
        Option.bind_eq_some_iff] at stepped
      obtain ⟨⟨item, store⟩, built, same⟩ := stepped
      cases same
      exact .delivered (.exchangeContent named built (by simp)) (by simp)
  | write literal =>
      simp only [sharedStep?, Option.bind_eq_bind, Option.bind_eq_some_iff] at stepped
      obtain ⟨⟨item, store⟩, built, same⟩ := stepped
      cases same
      exact .contentWritten named built (by simp)
  | same other =>
      simp only [sharedStep?] at stepped
      split at stepped
      · split at stepped <;> cases stepped
        exact .answered rfl
      · cases stepped
  | holders =>
      cases stepped
      exact .answered rfl

theorem sequenceStep?_outcome {payload : Ty} {buffer : Address} {op : SequenceOp}
    (named : state.register? name = some ⟨.kind (.sequence payload), .plain (.sequence buffer)⟩)
    (stepped : state.sequenceStep? allocator payload buffer op = some (next, report)) :
    state.Outcome allocator (.sequence name op) next report := by
  cases op with
  | length | toList | holders =>
      cases stepped
      exact .answered rfl
  | get index target =>
      simp only [sequenceStep?] at stepped
      rcases state.store.itemAt_cases buffer index with ⟨item, stored, granted⟩ | ⟨error, refused⟩
      · rw [granted] at stepped
        cases stepped
        exact .delivered (.item named stored) (by simp)
      · rw [refused] at stepped
        cases stepped
        exact .readRefused rfl
  | set index literal target | update index literal target =>
      simp only [sequenceStep?, exchangeItem?, Option.bind_eq_bind,
        Option.bind_eq_some_iff] at stepped
      obtain ⟨⟨item, store⟩, built, same⟩ := stepped
      cases stored : (store.items buffer)[index]? with
      | some previous =>
          simp only [Store.exchange_of_getElem? stored] at same
          cases same
          exact .delivered (.exchangeItem named built stored (by simp)) (by simp)
      | none =>
          have beyond := List.getElem?_eq_none_iff.mp stored
          simp only [Store.exchange_of_le beyond] at same
          cases same
          refine .itemRefused named built beyond
            (?_ : _ ∈ [SequenceOp.set index literal target, .update index literal target])
          simp
  | push literal =>
      simp only [sequenceStep?, Option.bind_eq_bind, Option.bind_eq_some_iff] at stepped
      obtain ⟨⟨item, store⟩, built, same⟩ := stepped
      cases same
      exact .pushed named built (by simp)
  | pop target =>
      simp only [sequenceStep?, Sequence.pop] at stepped
      split at stepped
      · cases stepped
        exact .exhausted
      · next items item same =>
          obtain ⟨rfl, last⟩ := Prod.mk.inj same
          cases stepped
          exact .delivered (.pop named last) (by simp)
  | same other =>
      simp only [sequenceStep?] at stepped
      split at stepped
      · split at stepped <;> cases stepped
        exact .answered rfl
      · cases stepped

theorem step?_outcome (stepped : state.step? allocator op = some (next, report)) :
    state.Outcome allocator op next report := by
  cases op with
  | create target type literal =>
      simp only [step?, Option.bind_eq_bind, Option.bind_eq_some_iff] at stepped
      obtain ⟨⟨item, store⟩, built, same⟩ := stepped
      cases same
      exact .delivered (.create built) (by simp)
  | clone source target =>
      simp only [step?, Option.bind_eq_bind, Option.bind_eq_some_iff] at stepped
      obtain ⟨register, named, same⟩ := stepped
      cases same
      exact .delivered (.clone named) (by simp)
  | drop source =>
      simp only [step?, Option.bind_eq_bind, Option.bind_eq_some_iff] at stepped
      obtain ⟨register, named, same⟩ := stepped
      cases same
      exact .dropped named
  | compare left right =>
      simp only [step?, Option.bind_eq_bind, Option.bind_eq_some_iff] at stepped
      obtain ⟨_, _, _, _, same⟩ := stepped
      cases same
      exact .answered rfl
  | profile source =>
      simp only [step?] at stepped
      split at stepped <;> cases stepped
      exact .profiled
  | value source op =>
      simp only [step?, Option.bind_eq_bind, Option.bind_eq_some_iff] at stepped
      obtain ⟨⟨type, kinds, value⟩, named, stepped⟩ := stepped
      exact valueStep?_outcome named stepped
  | shared source op =>
      simp only [step?] at stepped
      split at stepped
      · next payload cell named => exact sharedStep?_outcome named stepped
      · cases stepped
  | sequence source op =>
      simp only [step?] at stepped
      split at stepped
      · next payload buffer named => exact sequenceStep?_outcome named stepped
      · cases stepped

/-- Every step comes to one of the outcomes. -/
theorem outcome_step (allocator : Allocator) (state : State) (op : Op) :
    state.Outcome allocator op (state.step allocator op).1 (state.step allocator op).2 := by
  unfold step
  cases stepped : state.step? allocator op with
  | none => exact .unfit (by simp)
  | some reached => exact step?_outcome stepped

/-! ## Steps computed -/

/-- An item in hand is delivered. -/
theorem Carries.step {middle : State} {register : Register}
    (carries : state.Carries allocator op target middle register) :
    (state.step allocator op).1 = middle.deliver target register := by
  cases carries with
  | create built => simp [State.step, step?, built, produce]
  | clone named => simp [State.step, step?, named, produce]
  | take named | rewrap named => simp [State.step, step?, named, valueStep?, produce]
  | payload named found active => simp [State.step, step?, named, valueStep?, found, active]
  | referent named resolved granted | element named resolved granted =>
      simp [State.step, step?, named, valueStep?, resolved, granted, copyOut, Logged.grant, produce]
  | content named => simp [State.step, step?, named, sharedStep?, copyOut, Logged.grant, produce]
  | exchangeContent named built exchanges =>
      simp only [List.mem_cons, List.not_mem_nil, or_false] at exchanges
      rcases exchanges with rfl | rfl <;>
        simp [State.step, step?, named, sharedStep?, exchangeContent?, built, produce]
  | item named stored =>
      simp [State.step, step?, named, sequenceStep?, Store.itemAt, Sequence.get, stored, copyOut,
        Logged.grant, produce]
  | exchangeItem named built stored exchanges =>
      simp only [List.mem_cons, List.not_mem_nil, or_false] at exchanges
      rcases exchanges with rfl | rfl <;>
        simp [State.step, step?, named, sequenceStep?, exchangeItem?, built,
          Store.exchange_of_getElem? stored, Logged.grant, produce]
  | pop named last => simp [State.step, step?, named, sequenceStep?, Sequence.pop, last, produce]

theorem step_writeContent {payload : Ty} {cell : Address}
    (named : state.register? name = some ⟨.kind (.shared payload), .plain (.shared cell)⟩)
    (built : literal.build allocator state.registers payload state.store = some (item, store)) :
    (state.step allocator (.shared name (.write literal))).1 =
      release { state with store := store.write cell (.cell item) } (store.content cell) := by
  simp [step, step?, named, sharedStep?, built]

section Buffer

variable {payload : Ty} {buffer : Address} {index : Nat}

theorem step_sequence
    (named : state.register? name = some ⟨.kind (.sequence payload), .plain (.sequence buffer)⟩)
    (op : SequenceOp) : state.step allocator (.sequence name op) =
      (state.sequenceStep? allocator payload buffer op).getD (state, .failure .malformed) := by
  simp [step, step?, named]

theorem step_push
    (named : state.register? name = some ⟨.kind (.sequence payload), .plain (.sequence buffer)⟩)
    (built : literal.build allocator state.registers payload state.store = some (item, store)) :
    (state.step allocator (.sequence name (.push literal))).1 =
      { state with store := store.write buffer (.buffer (store.items buffer ++ [item])) } := by
  simp [step, step?, named, sequenceStep?, Sequence.push, built]

theorem step_setElement {type result : Ty} {kinds : List Kind} {position : Nat} {element : Item}
    (named : state.value? name = some (type, kinds, .active ⟨position, .sequence buffer⟩))
    (resolved : Shape.element kinds = some result)
    (built : literal.build allocator state.registers result state.store = some (element, store))
    (projected : Shape.project Kind.elementShape kinds position element = some item)
    (stored : (store.items buffer)[index]? = some previous) :
    (state.step allocator (.value name (.setElement index literal))).1 =
      release { state with store := store.write buffer (.buffer ((store.items buffer).set index item)) }
        previous := by
  simp [step, step?, named, valueStep?, resolved, built, release,
    Store.setElement_of_getElem? projected stored]

end Buffer

/-! ## Runs -/

/-- A run in which every step has an allocator of its own. One allocator for all steps would have to
pick the same address whenever the same ones are live. -/
def runWith (state : State) : List (Allocator × Op) → State × List Report
  | [] => (state, [])
  | (allocator, op) :: steps =>
      let (next, report) := state.step allocator op
      let (last, reports) := next.runWith steps
      (last, report :: reports)

/-- A run with one allocator throughout. -/
theorem runWith_map (state : State) (allocator : Allocator) (ops : List Op) :
    state.runWith (ops.map (allocator, ·)) = state.run allocator ops := by
  induction ops generalizing state with
  | nil => rfl
  | cons op ops ih => simp only [List.map_cons, runWith, run, ih]

theorem runWith_append (state : State) (steps others : List (Allocator × Op)) :
    (state.runWith (steps ++ others)).1 = ((state.runWith steps).1.runWith others).1 := by
  induction steps generalizing state with
  | nil => rfl
  | cons step steps ih => exact ih (state.step step.1 step.2).1

end State

end LooseValue
