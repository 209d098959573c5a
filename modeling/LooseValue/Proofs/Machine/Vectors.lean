import LooseValue.Proofs.Machine.Defaults
import LooseValue.Proofs.Machine.Scripts
import LooseValue.Proofs.Machine.Sequences

/-!
# Vectors and sequences

A plain vector and a sequence that is reached through any of its handles are the same list: a script
of creations, reads and writes has the same answers on both, refuses the same positions with the
same error, and leaves the same elements behind after each step. This holds for sequences of plain
elements of any type, and for those sequences in the store of values whose elements are numbers or
truth values. Between the steps of the script handles may be copied and dropped, and other storage
may be written, as long as one handle to the sequence is left.
-/

set_option autoImplicit false

namespace LooseValue

variable {α : Type} {default : α}

/-! ## Sequences of plain elements -/

namespace Sequences

/-- The operation on the sequence of a name that does what the operation on a vector does. -/
def op (name : String) : Bulk.Op α → Op α
  | .create => .create name []
  | .createSized size => .createSized name size
  | .push x => .use name (.push x)
  | .get index => .use name (.get index)
  | .set index x => .use name (.set index x)
  | .size => .use name .length

/-- A sequence answers like a vector. What `done` is the answer to has nothing to compare. -/
def Matches : Except AccessError (Bulk.Answer α) → Option (Logged (Answer α)) → Prop
  | .ok .done, some ⟨.ok _, _⟩ => True
  | .ok (.element x), some ⟨.ok answer, _⟩ => answer = .element x
  | .ok (.size size), some ⟨.ok answer, _⟩ => answer = .length size
  | .error error, some ⟨.error own, _⟩ => own = error
  | _, _ => False

def host (default : α) : Host α where
  State := Sequences α
  Op := Op α
  Report := Option (Logged (Answer α))
  step := step default
  op := op
  toList name := .use name .toList
  buffer? := buffer?
  Holds := Holds
  LeavesAlone := LeavesAlone default
  Matches := Matches
  Lists vector report := report = some (.grant (.elements vector))

variable {allocator : Allocator} {state : Sequences α} {name : String} {buffer : Address}
  {vector : List α}

/-- A use through any handle to the buffer does what the vector does. -/
theorem use_follows (named : state.buffer? name = some buffer) (holds : state.Holds buffer vector)
    {op : Bulk.Op α} (used : op.creates = false) :
    let stepped := state.step default allocator (Sequences.op name op)
    let expected := Bulk.step default vector op
    stepped.1.Holds buffer expected.1 ∧ Matches expected.2 stepped.2 := by
  intro stepped expected
  cases op with
  | create | createSized => cases used
  | push x =>
      have pushed : stepped =
          (state.overwrite buffer (Bulk.push vector x), some (.grant .done)) := by
        simp [stepped, Sequences.op, step_use named, useStep, holds.elements, Sequence.push,
          Bulk.push]
      rw [pushed]
      exact ⟨holds.overwrite _, trivial⟩
  | get index =>
      have read : stepped = (state, some ((Sequence.get vector index).map .element)) := by
        simp [stepped, Sequences.op, step_use named, useStep, holds.elements]
      rw [read]
      refine ⟨holds, ?_⟩
      simp only [expected, Bulk.step, Bulk.get, Sequence.get]
      cases vector[index]? <;> rfl
  | set index x =>
      have exchanged : stepped = (state.overwrite buffer (Sequence.set vector index x).1,
          some ((Sequence.set vector index x).2.map .element)) := by
        simp [stepped, Sequences.op, step_use named, useStep, holds.elements]
      rw [exchanged, Sequence.set]
      by_cases inside : index < vector.length
      · have reached : expected = (vector.set index x, .ok .done) := by
          simp [expected, Bulk.step, Bulk.set, inside]
        rw [reached, Sequence.update_of_getElem? (List.getElem?_eq_getElem inside)]
        exact ⟨holds.overwrite _, trivial⟩
      · have reached : expected = (vector, .error (.indexOutOfBounds index vector.length)) := by
          simp [expected, Bulk.step, Bulk.set, inside]
        rw [reached, Sequence.update_of_le (Nat.le_of_not_lt inside)]
        exact ⟨holds.overwrite _, rfl⟩
  | size =>
      have measured : stepped = (state, some (.grant (.length vector.length))) := by
        simp [stepped, Sequences.op, step_use named, useStep, holds.elements]
      rw [measured]
      exact ⟨holds, rfl⟩

theorem follows (default : α) : (host default).Follows default Counted where
  valid counted allocator op := counted.step default allocator op
  creates := by
    intro state op counted creates allocator name vector
    cases op with
    | push | get | set | size => cases creates
    | create =>
        obtain ⟨buffer, named, holds⟩ := counted.holds_allocate allocator name []
        exact ⟨buffer, named, holds, trivial⟩
    | createSized size =>
        obtain ⟨buffer, named, holds⟩ :=
          counted.holds_allocate allocator name (List.replicate size default)
        exact ⟨buffer, named, holds, trivial⟩
  uses named holds used _ := use_follows named holds used
  spares counted alone holds := counted.holds_aside alone holds
  lists := by
    intro state name buffer vector named holds allocator
    have listed : (state.step default allocator (.use name .toList)).2 =
        some (.grant (.elements (state.elements buffer))) :=
      congrArg Prod.snd (step_use named .toList)
    rwa [holds.elements] at listed

end Sequences

/-! ## Sequences in the store of values -/

/-- The operation writes the buffer neither by itself nor by dropping the last handle to it. -/
def State.LeavesAlone (allocator : Allocator) (state : State) (op : Op) (buffer : Address) : Prop :=
  buffer ∈ (state.step allocator op).1.store.addresses ∧
  ∀ address block target, state.Writes allocator op address block target → address ≠ buffer

/-- How the elements of a vector stand in a sequence: as plain payloads of one kind, which hold no
storage and can be told apart. -/
structure Carrier (α : Type) (default : α) where
  kind : Kind
  payload : α → Payload
  literal : α → Literal
  tree : α → Tree
  bare : ∀ x, (payload x).handles = []
  built : ∀ allocator registers store x,
    (literal x).build allocator registers (.kind kind) store = some (.plain (payload x), store)
  made : ∀ allocator store, (kind.makeDefault allocator store).1 = payload default
  shown : ∀ (store : Store) x, store.tree? (.plain (payload x)) = some (tree x)
  injective : Function.Injective tree

def Carrier.float64 : Carrier (Bulk.Family.Element .float64) (Bulk.Family.default .float64) where
  kind := .number
  payload := .number
  literal := .number
  tree := .number
  bare _ := rfl
  built _ _ _ _ := rfl
  made _ _ := rfl
  shown store x := store.tree?_number x
  injective _ _ same := Tree.number.inj same

def Carrier.boolean : Carrier (Bulk.Family.Element .boolean) (Bulk.Family.default .boolean) where
  kind := .boolean
  payload := .boolean
  literal := .boolean
  tree := .boolean
  bare _ := rfl
  built _ _ _ _ := rfl
  made _ _ := rfl
  shown store x := store.tree?_boolean x
  injective _ _ same := Tree.boolean.inj same

namespace Carrier

def type (carrier : Carrier α default) : Ty := .kind (.sequence (.kind carrier.kind))

def item (carrier : Carrier α default) (x : α) : Item := .plain (carrier.payload x)

/-- The operation on the sequence of a name that does what the operation on a vector does. -/
def op (carrier : Carrier α default) (name : String) : Bulk.Op α → Op
  | .create => .create name carrier.type (.sequence [])
  | .createSized size => .create name carrier.type (.defaults size)
  | .push x => .sequence name (.push (carrier.literal x))
  | .get index => .sequence name (.get index none)
  | .set index x => .sequence name (.set index (carrier.literal x) none)
  | .size => .sequence name .length

/-- The buffer has the elements of the vector. -/
def Holds (carrier : Carrier α default) (store : Store) (buffer : Address) (vector : List α) :
    Prop :=
  store.block? buffer = some (.buffer (vector.map carrier.item))

/-- A sequence answers like a vector: an element is seen as the element it is, the length is the
size, and an operation on the one is refused with the same error as on the other. What `done` is the
answer to has nothing to compare. -/
def Matches (carrier : Carrier α default) :
    Except AccessError (Bulk.Answer α) → Except Failure Answer → Prop
  | .ok .done, .ok _ => True
  | .ok (.element x), .ok answer => answer = .item (.kind carrier.kind) (some (carrier.tree x))
  | .ok (.size size), .ok answer => answer = .length size
  | .error error, .error failure => failure = .access error
  | _, _ => False

variable {carrier : Carrier α default} {allocator : Allocator} {state : State} {name : String}
  {buffer : Address} {vector : List α}

theorem Holds.items {store : Store} (holds : carrier.Holds store buffer vector) :
    store.items buffer = vector.map carrier.item := by
  rw [Store.items_eq, holds]

/-! ## Steps -/

theorem step_push (holds : carrier.Holds state.store buffer vector)
    (named : state.register? name = some ⟨carrier.type, .plain (.sequence buffer)⟩) (x : α) :
    let stepped := state.step allocator (carrier.op name (.push x))
    carrier.Holds stepped.1.store buffer (Bulk.push vector x) ∧
      carrier.Matches (.ok .done) stepped.2.outcome := by
  intro stepped
  have written : stepped.1.store =
      state.store.write buffer (.buffer ((Bulk.push vector x).map carrier.item)) := by
    simp [stepped, op, State.step_sequence named, State.sequenceStep?, carrier.built, holds.items,
      Sequence.push, Bulk.push, item]
  have answered : ∃ answer, stepped.2.outcome = .ok answer := by
    simp [stepped, op, State.step_sequence named, State.sequenceStep?, carrier.built, Report.answer]
  obtain ⟨answer, answered⟩ := answered
  rw [answered]
  refine ⟨?_, trivial⟩
  rw [Holds, written]
  exact Store.block?_write_self holds _

/-- An element holds nothing, so that to drop it changes nothing. -/
theorem release_payload (carrier : Carrier α default) (store : Store) (x : α) :
    store.release (carrier.payload x).handles = store := by
  rw [carrier.bare, Store.release]

private theorem deliver_item (carrier : Carrier α default) (state : State) (x : α) :
    state.deliver none ⟨.kind carrier.kind, carrier.item x⟩ = state := by
  rw [State.deliver, State.release, item, Item.handles, carrier.release_payload]

private theorem step_get (holds : carrier.Holds state.store buffer vector)
    (named : state.register? name = some ⟨carrier.type, .plain (.sequence buffer)⟩) (index : Nat) :
    let stepped := state.step allocator (carrier.op name (.get index))
    stepped.1 = state ∧
      carrier.Matches ((Bulk.get vector index).map .element) stepped.2.outcome := by
  intro stepped
  have copied : stepped = state.copyOut none (.kind carrier.kind)
      (state.store.itemAt buffer index) := State.step_sequence named (.get index none)
  rw [copied, Store.itemAt, Sequence.get, holds.items, List.getElem?_map, Bulk.get]
  cases vector[index]? with
  | none =>
      refine ⟨rfl, ?_⟩
      simp [State.copyOut, Logged.refuse, Matches, Except.map]
  | some x =>
      have retained : state.retain (carrier.item x) = state := by
        rw [State.retain, item, Item.handles, carrier.bare]
        rfl
      simp only [Option.map_some, State.copyOut, Logged.grant, retained, State.produce]
      refine ⟨carrier.deliver_item state x, ?_⟩
      simp [Report.answer, Matches, Except.map, item, carrier.shown]

private theorem step_set_inside (holds : carrier.Holds state.store buffer vector)
    (named : state.register? name = some ⟨carrier.type, .plain (.sequence buffer)⟩) {index : Nat}
    (inside : index < vector.length) (x : α) :
    let stepped := state.step allocator (carrier.op name (.set index x))
    carrier.Holds stepped.1.store buffer (vector.set index x) ∧
      carrier.Matches (.ok .done) stepped.2.outcome := by
  intro stepped
  have stored : (state.store.items buffer)[index]? = some (carrier.item vector[index]) := by
    simp [holds.items, inside]
  have written : stepped.1.store =
      state.store.write buffer (.buffer ((vector.set index x).map carrier.item)) := by
    have exchanged : state.Carries allocator (carrier.op name (.set index x)) none _ _ :=
      .exchangeItem named (carrier.built allocator state.registers state.store x) stored
        List.mem_cons_self
    rw [show stepped.1 = _ from exchanged.step, carrier.deliver_item, holds.items, List.map_set]
    rfl
  have answered : ∃ answer, stepped.2.outcome = .ok answer := by
    simp [stepped, op, State.step_sequence named, State.sequenceStep?, State.exchangeItem?,
      carrier.built, Store.exchange_of_getElem? stored, Logged.grant, State.produce, Report.answer]
  obtain ⟨answer, answered⟩ := answered
  rw [answered, Holds, written]
  exact ⟨Store.block?_write_self holds _, trivial⟩

private theorem step_set_outside (holds : carrier.Holds state.store buffer vector)
    (named : state.register? name = some ⟨carrier.type, .plain (.sequence buffer)⟩) {index : Nat}
    (outside : ¬ index < vector.length) (x : α) :
    let stepped := state.step allocator (carrier.op name (.set index x))
    stepped.1 = state ∧ carrier.Matches (.error (.indexOutOfBounds index vector.length))
      stepped.2.outcome := by
  intro stepped
  have beyond : (state.store.items buffer).length ≤ index := by
    rw [holds.items, List.length_map]
    exact Nat.le_of_not_lt outside
  constructor
  · simp [stepped, op, State.step_sequence named, State.sequenceStep?, State.exchangeItem?,
      carrier.built, Store.exchange_of_le beyond, Logged.refuse, Item.handles,
      carrier.release_payload]
  · simp [stepped, op, State.step_sequence named, State.sequenceStep?, State.exchangeItem?,
      carrier.built, Store.exchange_of_le beyond, Logged.refuse, holds.items, Matches]

/-- A step through any handle to the buffer does what the vector does. -/
theorem step_use (holds : carrier.Holds state.store buffer vector)
    (named : state.register? name = some ⟨carrier.type, .plain (.sequence buffer)⟩)
    {op : Bulk.Op α} (used : op.creates = false) :
    let stepped := state.step allocator (carrier.op name op)
    let expected := Bulk.step default vector op
    carrier.Holds stepped.1.store buffer expected.1 ∧
      carrier.Matches expected.2 stepped.2.outcome := by
  intro stepped expected
  cases op with
  | create | createSized => cases used
  | push x => exact step_push holds named x
  | get index =>
      obtain ⟨same, answers⟩ := step_get holds named index
      exact ⟨same ▸ holds, answers⟩
  | set index x =>
      by_cases inside : index < vector.length
      · have reached : expected = (vector.set index x, .ok .done) := by
          simp [expected, Bulk.step, Bulk.set, inside]
        rw [reached]
        exact step_set_inside holds named inside x
      · have reached : expected = (vector, .error (.indexOutOfBounds index vector.length)) := by
          simp [expected, Bulk.step, Bulk.set, inside]
        obtain ⟨same, answers⟩ := step_set_outside holds named inside x
        rw [reached]
        exact ⟨same ▸ holds, answers⟩
  | size =>
      have length : stepped = (state, .answer (.length vector.length)) := by
        simp [stepped, Carrier.op, State.step_sequence named, State.sequenceStep?, holds.items]
      rw [length]
      exact ⟨holds, rfl⟩

/-- A creation binds the name to a buffer with the elements of the new vector. -/
theorem step_defaults {typing : StoreTyping} (carrier : Carrier α default)
    (sound : state.Sound typing []) (allocator : Allocator) (name : String) (length : Nat) :
    let stepped := state.step allocator (.create name carrier.type (.defaults length))
    ∃ buffer, stepped.1.register? name = some ⟨carrier.type, .plain (.sequence buffer)⟩ ∧
      carrier.Holds stepped.1.store buffer (List.replicate length default) ∧
      carrier.Matches (.ok .done) stepped.2.outcome := by
  intro stepped
  obtain ⟨buffer, items, counted, lists, fresh⟩ :=
    sound.defaults_created allocator name (.kind carrier.kind) length
  obtain ⟨_, nextSound⟩ := sound.step allocator (.create name carrier.type (.defaults length))
  have same : items = List.replicate length (carrier.item default) := by
    refine List.eq_replicate_iff.mpr ⟨counted, ?_⟩
    intro item member
    obtain ⟨origin, rfl⟩ := fresh.made item member
    exact congrArg Item.plain (carrier.made allocator origin)
  refine ⟨buffer, lists.named, ?_, ?_⟩
  · rw [Holds, List.map_replicate, ← same]
    exact lists.block? nextSound
  · obtain ⟨_, _, built, _⟩ :=
      Literal.build_defaults allocator state.registers (.kind carrier.kind) length state.store
    have answered := congrArg Prod.snd (State.step_create built name)
    rw [show stepped.2 = _ from answered]
    trivial

/-- The buffer that a name has a handle to, if it is for such elements. -/
def buffer? (carrier : Carrier α default) (state : State) (name : String) : Option Address :=
  match state.register? name with
  | some ⟨type, .plain (.sequence buffer)⟩ => if type = carrier.type then some buffer else none
  | _ => none

private theorem buffer?_eq_some_iff :
    carrier.buffer? state name = some buffer ↔
      state.register? name = some ⟨carrier.type, .plain (.sequence buffer)⟩ := by
  unfold buffer?
  split
  · next type own registered =>
      by_cases same : type = carrier.type
      · simp [registered, same]
      · simp [registered, same]
  · next other =>
      refine ⟨fun impossible => (Option.some_ne_none _ impossible.symm).elim, ?_⟩
      exact fun registered => (other _ _ registered).elim

theorem Holds.toList (holds : carrier.Holds state.store buffer vector)
    (named : state.register? name = some ⟨carrier.type, .plain (.sequence buffer)⟩) :
    (state.step allocator (.sequence name .toList)).2.outcome =
      .ok (.contents (vector.map fun x => some (carrier.tree x))) := by
  have listed : (vector.map carrier.item).map state.store.tree? =
      vector.map fun x => some (carrier.tree x) := by
    rw [List.map_map]
    exact List.map_congr_left fun x _ => carrier.shown state.store x
  simp [State.step_sequence named, State.sequenceStep?, holds.items, Report.answer, ← listed]

private theorem step_creates {typing : StoreTyping} {op : Bulk.Op α} (sound : state.Sound typing [])
    (creates : op.creates = true) (allocator : Allocator) (name : String) (vector : List α) :
    let stepped := state.step allocator (carrier.op name op)
    let expected := Bulk.step default vector op
    ∃ buffer, stepped.1.register? name = some ⟨carrier.type, .plain (.sequence buffer)⟩ ∧
      carrier.Holds stepped.1.store buffer expected.1 ∧
      carrier.Matches expected.2 stepped.2.outcome := by
  cases op with
  | push | get | set | size => cases creates
  | create =>
      -- An empty sequence is a sequence of no defaults.
      exact carrier.step_defaults sound allocator name 0
  | createSized size => exact carrier.step_defaults sound allocator name size

theorem Holds.aside {typing : StoreTyping} {op : Op}
    (holds : carrier.Holds state.store buffer vector) (sound : state.Sound typing [])
    (alone : state.LeavesAlone allocator op buffer) :
    carrier.Holds (state.step allocator op).1.store buffer vector := by
  obtain ⟨live, unwritten⟩ := alone
  obtain ⟨block, survives⟩ := Store.exists_block?_of_mem live
  have same : block = .buffer (vector.map carrier.item) := by
    rcases sound.writes_or_rehandled allocator op with ⟨address, written, target, writes⟩ | rehandled
    · exact (writes.overwrites sound).frame buffer (unwritten address written target writes).symm
        _ _ holds survives
    · exact rehandled.frame sound.counted.distinct buffer (fun changed => changed) _ _ holds survives
  rw [Holds, survives, same]

def host (carrier : Carrier α default) : Host α where
  State := State
  Op := Op
  Report := Report
  step allocator state op := state.step allocator op
  op := carrier.op
  toList name := .sequence name .toList
  buffer? := carrier.buffer?
  Holds state := carrier.Holds state.store
  LeavesAlone allocator state := state.LeavesAlone allocator
  Matches expected report := carrier.Matches expected report.outcome
  Lists vector report :=
    report.outcome = .ok (.contents (vector.map fun x => some (carrier.tree x)))

theorem follows (carrier : Carrier α default) :
    carrier.host.Follows default fun state => ∃ typing, state.Sound typing [] where
  valid := by
    rintro state ⟨typing, sound⟩ allocator op
    exact sound.step allocator op
  creates := by
    rintro state op ⟨typing, sound⟩ creates allocator name vector
    obtain ⟨buffer, named, holds, answers⟩ :=
      carrier.step_creates sound creates allocator name vector
    exact ⟨buffer, buffer?_eq_some_iff.mpr named, holds, answers⟩
  uses named holds used _ := step_use holds (buffer?_eq_some_iff.mp named) used
  spares := by
    rintro state allocator op buffer vector ⟨typing, sound⟩ alone holds
    exact holds.aside sound alone
  lists named holds _ := holds.toList (buffer?_eq_some_iff.mp named)

end Carrier

/-! ## Scripts -/

/-- A vector and a sequence go through every script alike, whichever handles the sequence is reached
through: a sequence of plain elements of any type, and a sequence in the store of values. A vector
that is refused an operation names the index and its length and stays as it is, and a vector of a
given size is the empty one with that many defaults pushed. -/
theorem sequences_follow_vectors (default : α) :
    (∀ (state : Sequences α) (current : Option Address) (vector : List α)
      (moves : List (Sequences.host default).Move) (moments : List (Sequences.host default).Moment),
      state.Reachable default → (∀ buffer, current = some buffer → state.Holds buffer vector) →
      (Sequences.host default).Plays state current moves moments →
      List.Forall₂ (Sequences.host default).Agrees
        (Bulk.run default vector (moves.filterMap Host.Move.act?)) moments) ∧
    (∀ (carrier : Carrier α default) (state : State) (current : Option Address) (vector : List α)
      (moves : List carrier.host.Move) (moments : List carrier.host.Moment),
      state.Reachable → (∀ buffer, current = some buffer → carrier.Holds state.store buffer vector) →
      carrier.host.Plays state current moves moments →
      List.Forall₂ carrier.host.Agrees
        (Bulk.run default vector (moves.filterMap Host.Move.act?)) moments) ∧
    (∀ (before : List α) (op : Bulk.Op α) (error : AccessError),
      (Bulk.step default before op).2 = .error error →
      (Bulk.step default before op).1 = before ∧
        ∃ index, before.length ≤ index ∧ error = .indexOutOfBounds index before.length) ∧
    ∀ size, Bulk.createSized default size =
      (List.replicate size default).foldl Bulk.push Bulk.create := by
  refine ⟨?_, ?_, fun _ _ _ => Bulk.step_of_error, ?_⟩
  · intro state current vector moves moments reachable holds plays
    exact (Sequences.follows default).agrees plays reachable.counted holds
  · intro carrier state current vector moves moments reachable holds plays
    exact carrier.follows.agrees plays reachable.sound holds
  · intro size
    rw [Bulk.foldl_push, Bulk.create, List.nil_append, Bulk.createSized]

/-- A vector of one integer is created, copied to a second name, grown through the one handle, written
and read through the other, and read beyond its end. -/
def twoHanded : List (Sequences.host (Bulk.Family.default .int32)).Move :=
  [.act .ascending "a" (.createSized 1), .aside .ascending (.clone "a" "b"),
    .act .ascending "a" (.push (7 : Int32)), .act .ascending "b" (.set 0 (5 : Int32)),
    .act .ascending "b" (.get 1), .act .ascending "a" (.get 2)]

private theorem twoHanded_plays : ∃ moments,
    (Sequences.host (Bulk.Family.default .int32)).Plays .initial none twoHanded moments := by
  apply Host.exists_plays_act
  · intro used
    cases used
  apply Host.exists_plays_aside
  · intro buffer isCurrent
    have created : some 1 = some buffer := isCurrent
    cases created
    refine ⟨?_, fun name use impossible => by cases impossible⟩
    decide +kernel
  apply Host.exists_plays_act
  · exact fun _ => ⟨1, by decide +kernel⟩
  apply Host.exists_plays_act
  · exact fun _ => ⟨1, by decide +kernel⟩
  apply Host.exists_plays_act
  · exact fun _ => ⟨1, by decide +kernel⟩
  apply Host.exists_plays_act
  · exact fun _ => ⟨1, by decide +kernel⟩
  exact ⟨[], .nil⟩

/-- A vector of numbers in the store of values is grown through a copy of its handle. -/
def regrown : List Carrier.float64.host.Move :=
  [.act .ascending "a" .create, .aside .ascending (.clone "a" "b"),
    .act .ascending "b" (.push (Binary.zero true))]

private theorem regrown_plays :
    ∃ moments, Carrier.float64.host.Plays .initial none regrown moments := by
  apply Host.exists_plays_act
  · intro used
    cases used
  apply Host.exists_plays_aside
  · intro buffer isCurrent
    have created : some 1 = some buffer := isCurrent
    cases created
    refine ⟨?_, fun address block target writes => by cases writes⟩
    decide +kernel
  apply Host.exists_plays_act
  · exact fun _ => ⟨1, by decide +kernel⟩
  exact ⟨[], .nil⟩

private theorem grown_plays : ∃ moments, Carrier.boolean.host.Plays .initial none
    [.act .ascending "a" .create, .act .ascending "a" (.push true)] moments := by
  apply Host.exists_plays_act
  · intro used
    cases used
  apply Host.exists_plays_act
  · exact fun _ => ⟨1, by decide +kernel⟩
  exact ⟨[], .nil⟩

theorem twoHanded_agrees :
    (∃ moments, (Sequences.host (Bulk.Family.default .int32)).Plays .initial none twoHanded moments ∧
      List.Forall₂ (Sequences.host (Bulk.Family.default .int32)).Agrees
        (Bulk.run (Bulk.Family.default .int32) [] (twoHanded.filterMap Host.Move.act?)) moments) ∧
    (∃ moments, Carrier.float64.host.Plays .initial none regrown moments ∧
      List.Forall₂ Carrier.float64.host.Agrees
        (Bulk.run (Bulk.Family.default .float64) [] [.create, .push (Binary.zero true)]) moments) ∧
    ∃ moments, Carrier.boolean.host.Plays .initial none
        [.act .ascending "a" .create, .act .ascending "a" (.push true)] moments ∧
      List.Forall₂ Carrier.boolean.host.Agrees
        (Bulk.run (Bulk.Family.default .boolean) [] [.create, .push true]) moments := by
  obtain ⟨plain, _⟩ := sequences_follow_vectors (Bulk.Family.default .int32)
  obtain ⟨_, ofNumbers, _⟩ := sequences_follow_vectors (Bulk.Family.default .float64)
  obtain ⟨_, ofTruths, _⟩ := sequences_follow_vectors (Bulk.Family.default .boolean)
  obtain ⟨integers, playsIntegers⟩ := twoHanded_plays
  obtain ⟨numbers, playsNumbers⟩ := regrown_plays
  obtain ⟨truths, playsTruths⟩ := grown_plays
  refine ⟨?_, ?_, ?_⟩
  · refine ⟨integers, playsIntegers, plain _ none [] _ _ .initial ?_ playsIntegers⟩
    intro buffer isCurrent
    cases isCurrent
  · refine ⟨numbers, playsNumbers, ofNumbers .float64 _ none [] _ _ .initial ?_ playsNumbers⟩
    intro buffer isCurrent
    cases isCurrent
  · refine ⟨truths, playsTruths, ofTruths .boolean _ none [] _ _ .initial ?_ playsTruths⟩
    intro buffer isCurrent
    cases isCurrent

end LooseValue
