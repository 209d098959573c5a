import LooseValue.Proofs.Machine.Refusals

/-!
# Identity and sharing

Comparison sees of a compound value nothing but an address. In a state that a run reaches this is
enough: a live address names one block, and the kinds of the handles to it say whether that is a cell
or a buffer. So compound values are equal exactly if they lead to the same block, whatever its
content, and as long as both are there no write changes that. An address that was given up may come
back, but only for a block that nothing led to at that time.
-/

set_option autoImplicit false

namespace LooseValue

/-! ## Handles and the blocks they lead to -/

namespace Payload

def isCompound : Payload → Bool
  | .shared _ => true
  | .sequence _ => true
  | _ => false

/-- A handle and the live block at its address, which is of the sort that the handle promises. -/
inductive LeadsTo : Payload → Entry → Prop where
  | cell {entry : Entry} {content : Item} : entry.block = .cell content →
      LeadsTo (.shared entry.address) entry
  | buffer {entry : Entry} {items : List Item} : entry.block = .buffer items →
      LeadsTo (.sequence entry.address) entry

theorem LeadsTo.primitive {payload : Payload} {entry : Entry} (leads : payload.LeadsTo entry) :
    payload.primitive = .object entry.address := by
  cases leads <;> rfl

/-- A block tells its handles: a cell has no handle of a sequence, nor a buffer one of a cell. -/
theorem LeadsTo.unique {one other : Payload} {entry : Entry} (leads : one.LeadsTo entry)
    (too : other.LeadsTo entry) : one = other := by
  cases leads with
  | cell isCell =>
      cases too with
      | cell => rfl
      | buffer isBuffer =>
          rw [isCell] at isBuffer
          cases isBuffer
  | buffer isBuffer =>
      cases too with
      | cell isCell =>
          rw [isCell] at isBuffer
          cases isBuffer
      | buffer => rfl

end Payload

namespace Value

def isCompound (value : Value) : Bool := value.payload?.any Payload.isCompound

private theorem isCompound_iff {value : Value} :
    value.isCompound = true ↔
      ∃ payload, value.payload? = some payload ∧ payload.isCompound = true := by
  unfold isCompound
  cases value.payload? <;> simp

end Value

/-- Both values hold a handle to one and the same live block. -/
def Store.Shares (store : Store) (a b : Value) : Prop :=
  ∃ entry ∈ store.entries, ∃ p q, a.payload? = some p ∧ b.payload? = some q ∧
    p.LeadsTo entry ∧ q.LeadsTo entry

namespace Block

/-- The items that a block consists of. -/
def items : Block → List Item
  | .cell content => [content]
  | .buffer items => items

private theorem handles_eq_flatMap_items (block : Block) :
    block.handles = block.items.flatMap Item.handles := by
  cases block <;> simp [handles, items]

theorem HasKind.typed {typing : StoreTyping} {block : Block} {kind : Kind}
    (typed : block.HasKind typing kind) : ∀ item ∈ block.items, ∃ type, item.HasType typing type := by
  intro item member
  cases typed with
  | cell contentTyped =>
      rw [List.mem_singleton.mp member]
      exact ⟨_, contentTyped⟩
  | buffer itemsTyped => exact ⟨_, itemsTyped item member⟩

end Block

namespace State

/-- The values that there are in a state: those of names, and those in live blocks. -/
inductive Live (state : State) (value : Value) : Prop where
  | named {name : String} {type : Ty} : (name, ⟨type, .value value⟩) ∈ state.registers →
      Live state value
  | stored {entry : Entry} : entry ∈ state.store.entries → .value value ∈ entry.block.items →
      Live state value

variable {typing : StoreTyping} {allocator : Allocator} {state : State} {a b : Value} {op : Op}
  {name : String}

private theorem live_of_value? {type : Ty} {kinds : List Kind}
    (named : state.value? name = some (type, kinds, a)) : state.Live a :=
  .named (mem_of_lookup (value?_inv named).1)

namespace Sound

private theorem typed_of_live (sound : state.Sound typing []) (live : state.Live a) :
    ∃ type, Item.HasType typing (.value a) type := by
  cases live with
  | named member => exact ⟨_, sound.registers _ member⟩
  | stored member inside =>
      obtain ⟨kind, _, typed⟩ := sound.store.typed _ member
      exact typed.typed _ inside

private theorem mem_addresses_of_live (sound : state.Sound typing []) (live : state.Live a) :
    ∀ handle ∈ a.handles, handle ∈ state.store.addresses := by
  intro handle inside
  apply (sound.counted.live handle).mpr
  cases live with
  | named member => exact List.mem_append_left _ (List.mem_flatMap.mpr ⟨_, member, inside⟩)
  | @stored entry member stored =>
      apply List.mem_append_right
      refine List.mem_flatMap.mpr ⟨entry, member, ?_⟩
      rw [Block.holder_handles, Block.handles_eq_flatMap_items]
      exact List.mem_flatMap.mpr ⟨_, stored, inside⟩

/-- A compound value that is there leads to a block that is there. -/
theorem exists_leadsTo {payload : Payload} (sound : state.Sound typing []) (live : state.Live a)
    (holds : a.payload? = some payload) (compound : payload.isCompound = true) :
    ∃ entry ∈ state.store.entries, payload.LeadsTo entry := by
  obtain ⟨type, typed⟩ := sound.typed_of_live live
  have alive := sound.mem_addresses_of_live live
  cases a with
  | undefined => cases holds
  | active alternative =>
      obtain ⟨position, own⟩ := alternative
      cases holds
      obtain ⟨kind, _, kindTyped⟩ := typed.toValue.inv
      cases kindTyped with
      | boolean | number | text => cases compound
      | @shared cell _ known =>
          obtain ⟨found, _⟩ := sound.store.typed.cell (alive cell List.mem_cons_self) known
          obtain ⟨entry, member, rfl, block⟩ := Store.exists_entry_of_block? found
          exact ⟨entry, member, .cell block⟩
      | @sequence buffer _ known =>
          obtain ⟨found, _⟩ := sound.store.typed.buffer (alive buffer List.mem_cons_self) known
          obtain ⟨entry, member, rfl, block⟩ := Store.exists_entry_of_block? found
          exact ⟨entry, member, .buffer block⟩

private theorem entry_unique (sound : state.Sound typing []) {one other : Entry}
    (member : one ∈ state.store.entries) (too : other ∈ state.store.entries)
    (same : one.address = other.address) : one = other := by
  have found := Store.find?_of_mem sound.counted.distinct member
  rw [same, Store.find?_of_mem sound.counted.distinct too] at found
  exact (Option.some.inj found).symm

/-- Compound values that are there are equal exactly if they share their block. -/
theorem looseEq_iff_shares (sound : state.Sound typing []) (liveA : state.Live a)
    (liveB : state.Live b) (compoundA : a.isCompound = true) (compoundB : b.isCompound = true) :
    a.looseEq b = true ↔ state.store.Shares a b := by
  obtain ⟨p, holdsA, compoundP⟩ := Value.isCompound_iff.mp compoundA
  obtain ⟨q, holdsB, compoundQ⟩ := Value.isCompound_iff.mp compoundB
  obtain ⟨entry, member, leads⟩ := sound.exists_leadsTo liveA holdsA compoundP
  obtain ⟨other, otherMember, otherLeads⟩ := sound.exists_leadsTo liveB holdsB compoundQ
  have verdict : a.looseEq b = true ↔ entry.address = other.address := by
    simp [Value.looseEq, Value.primitive?, holdsA, holdsB, leads.primitive, otherLeads.primitive,
      Primitive.looseEq]
  rw [verdict]
  constructor
  · intro same
    cases sound.entry_unique member otherMember same
    exact ⟨entry, member, p, q, holdsA, holdsB, leads, otherLeads⟩
  · rintro ⟨shared, _, _, _, sameA, sameB, leadsA, leadsB⟩
    rw [holdsA] at sameA
    rw [holdsB] at sameB
    cases sameA
    cases sameB
    have first := leads.primitive.symm.trans leadsA.primitive
    have second := otherLeads.primitive.symm.trans leadsB.primitive
    rw [Primitive.object.inj first, Primitive.object.inj second]

/-- A reference to a cell and a sequence never share a block. -/
theorem not_looseEq_of_sorts {cell buffer : Address} (sound : state.Sound typing [])
    (liveA : state.Live a) (liveB : state.Live b) (holdsA : a.payload? = some (.shared cell))
    (holdsB : b.payload? = some (.sequence buffer)) : a.looseEq b = false := by
  have compoundA : a.isCompound = true := Value.isCompound_iff.mpr ⟨_, holdsA, rfl⟩
  have compoundB : b.isCompound = true := Value.isCompound_iff.mpr ⟨_, holdsB, rfl⟩
  rw [← Bool.not_eq_true, sound.looseEq_iff_shares liveA liveB compoundA compoundB]
  rintro ⟨entry, _, p, q, sameA, sameB, leadsA, leadsB⟩
  rw [leadsA.unique leadsB, ← sameB, holdsA, holdsB] at sameA
  cases sameA

end Sound

end State

/-! ## Values without a common handle -/

namespace Value

variable {a b : Value}

/-- A compound value is unequal to whatever has none of its handles; this includes scalars. -/
theorem looseEq_eq_false (compound : a.isCompound = true)
    (apart : ∀ handle ∈ a.handles, handle ∉ b.handles) : a.looseEq b = false := by
  cases a with
  | undefined => cases compound
  | active alternative =>
      obtain ⟨_, payload⟩ := alternative
      cases b with
      | undefined => rfl
      | active other =>
          obtain ⟨_, otherPayload⟩ := other
          cases payload <;> cases otherPayload <;>
            simp_all [isCompound, payload?, Payload.isCompound, looseEq, primitive?, Payload.primitive,
              Primitive.looseEq, handles, Payload.handles]

private theorem handles_of_not_isCompound (scalar : b.isCompound = false) : b.handles = [] := by
  cases b with
  | undefined => rfl
  | active alternative =>
      obtain ⟨_, payload⟩ := alternative
      cases payload with
      | boolean | number | text => rfl
      | shared | sequence => cases scalar

private theorem equalsPrimitive_ofScalar (compound : a.isCompound = true) (scalar : Scalar) :
    a.equalsPrimitive (.ofScalar scalar) = false := by
  obtain ⟨payload, holds, isCompound⟩ := isCompound_iff.mp compound
  cases payload with
  | boolean | number | text => cases isCompound
  | shared | sequence =>
      cases scalar with
      | object identity => exact identity.elim
      | boolean | number | text => simp [equalsPrimitive, primitive?, holds]; rfl

end Value

/-! ## New blocks -/

section New

variable {allocator : Allocator} {registers : List (String × Register)} {store after : Store}

private theorem Store.allocate_fresh (grown : store.Grown after) (block : Block) :
    (after.allocate allocator block).1 ∉ store.addresses := by
  intro live
  exact allocator.fresh after.addresses (grown.mem_addresses live)

private theorem Kind.makeDefault_fresh (kind : Kind) :
    ∀ handle ∈ (kind.makeDefault allocator store).1.handles, handle ∉ store.addresses := by
  intro handle made
  cases kind with
  | boolean | number | text => exact (List.not_mem_nil made).elim
  | shared payload =>
      rw [List.mem_singleton.mp made]
      exact Store.allocate_fresh (payload.grownTo_makeDefault store).grown
        (.cell (payload.makeDefault allocator store).1)
  | sequence payload =>
      rw [List.mem_singleton.mp made]
      exact Store.allocate_fresh .refl (.buffer [])

/-- The literals that make a block of their own for what they describe, if it needs one. -/
def Literal.isNew : Literal → Bool
  | .shared _ | .sequence _ | .default => true
  | _ => false

private theorem Literal.buildPayload_fresh {literal : Literal} {kind : Kind} {payload : Payload}
    (isNew : literal.isNew = true)
    (live : ∀ named ∈ registers, ∀ handle ∈ named.2.item.handles, handle ∈ store.addresses)
    (built : literal.buildPayload allocator registers kind store = some (payload, after)) :
    ∀ handle ∈ payload.handles, handle ∉ store.addresses := by
  unfold buildPayload at built
  split at built
  · next own last first =>
      cases built
      intro handle made
      cases literal with
      | boolean | number | text | undefined | active | copy => cases isNew
      | shared referent =>
          cases makes_of_build first with
          | shared content =>
              rw [List.mem_singleton.mp made]
              exact Store.allocate_fresh (referent.grownTo_build live content).grown _
      | sequence literals =>
          cases makes_of_build first with
          | sequence items =>
              rw [List.mem_singleton.mp made]
              exact Store.allocate_fresh (grownTo_buildAll literals live items).grown _
      | default =>
          cases first
          exact kind.makeDefault_fresh handle made
  · cases built

end New

/-! ## Names that writes leave alone -/

/-- Where the result of an operation is stored. -/
def Op.target? : Op → Option String
  | .create target _ _ => some target
  | .clone _ target => some target
  | .value _ (.take target) | .value _ (.rewrap target) | .value _ (.get _ target) => target
  | .value _ (.referent target) | .value _ (.element _ target) => target
  | .shared _ (.get target) | .shared _ (.replace _ target) | .shared _ (.update _ target) => target
  | .sequence _ (.get _ target) | .sequence _ (.set _ _ target) => target
  | .sequence _ (.update _ _ target) | .sequence _ (.pop target) => target
  | _ => none

namespace State

variable {typing : StoreTyping} {allocator : Allocator} {state next : State} {report : Report}
  {b : Value} {op : Op} {name : String} {literal : Literal} {target : Option String}

private theorem Carries.register?_of_write {middle : State} {register : Register}
    (carries : state.Carries allocator op target middle register) (isWrite : op.isWrite = true)
    (apart : some name ≠ op.target?) :
    (middle.deliver target register).register? name = state.register? name := by
  cases carries with
  | create | clone | take | rewrap | payload | referent | element | content | item => cases isWrite
  | exchangeContent _ _ exchanges | exchangeItem _ _ _ exchanges =>
      simp only [List.mem_cons, List.not_mem_nil, or_false] at exchanges
      rcases exchanges with rfl | rfl <;> exact register?_deliver apart
  | pop => exact register?_deliver apart

/-- A write changes no name but the one that its result goes to. -/
theorem Outcome.register?_of_write (outcome : state.Outcome allocator op next report)
    (isWrite : op.isWrite = true) (apart : some name ≠ op.target?) :
    next.register? name = state.register? name := by
  cases outcome with
  | unfit | answered | profiled | exhausted | readRefused => rfl
  | elementWritten | elementRefused | contentWritten | pushed | itemRefused => rfl
  | delivered carries => exact carries.register?_of_write isWrite apart
  | dropped | cleared | overwriteMissed => cases isWrite
  | replaced _ _ _ isSet =>
      simp only [List.mem_cons, List.not_mem_nil, or_false] at isSet
      rcases isSet with rfl | rfl <;> cases isWrite

private theorem register?_runWith_of_writes (state : State) {steps : List (Allocator × Op)}
    (writes : ∀ step ∈ steps, step.2.isWrite = true ∧ some name ≠ step.2.target?) :
    (state.runWith steps).1.register? name = state.register? name := by
  induction steps generalizing state with
  | nil => rfl
  | cons step steps ih =>
      obtain ⟨isWrite, apart⟩ := writes step List.mem_cons_self
      have rest : ((state.step step.1 step.2).1.runWith steps).1.register? name =
          (state.step step.1 step.2).1.register? name :=
        ih _ fun other member => writes other (List.mem_cons_of_mem _ member)
      exact rest.trans ((outcome_step step.1 state step.2).register?_of_write isWrite apart)

private theorem value?_runWith_of_writes (state : State) {steps : List (Allocator × Op)}
    (writes : ∀ step ∈ steps, step.2.isWrite = true ∧ some name ≠ step.2.target?) :
    (state.runWith steps).1.value? name = state.value? name := by
  unfold value?
  rw [register?_runWith_of_writes state writes]

private theorem Sound.new_unequal {kind : Kind} {payload : Payload} {store : Store}
    (sound : state.Sound typing []) (isNew : literal.isNew = true)
    (built : literal.buildPayload allocator state.registers kind state.store = some (payload, store))
    (compound : payload.isCompound = true) (live : state.Live b) (position : Nat) :
    (Value.active ⟨position, payload⟩).looseEq b = false := by
  have held : ∀ named ∈ state.registers, ∀ handle ∈ named.2.item.handles,
      handle ∈ state.store.addresses := by
    intro named member handle inside
    exact sound.counted.mem_addresses (List.mem_flatMap.mpr ⟨named, member, inside⟩)
  refine Value.looseEq_eq_false (Value.isCompound_iff.mpr ⟨payload, rfl, compound⟩) ?_
  intro handle own inside
  exact Literal.buildPayload_fresh isNew held built handle own
    (sound.mem_addresses_of_live live handle inside)

/-- Equality of compound values is sharing. In every state that a run reaches, a compound value leads
to exactly one live block, and two of them are equal exactly if they lead to the same one; so a
reference to a cell never equals a sequence, a new block is told from all there is, and no compound
value equals a scalar. Values that are still there later share what they shared, and a comparison of
names that a run of writes leaves alone is answered as before. -/
theorem identity_is_sharing (reachable : state.Reachable) (allocator : Allocator) :
    (∀ a payload, state.Live a → a.payload? = some payload → payload.isCompound = true →
      ∃! entry, entry ∈ state.store.entries ∧ payload.LeadsTo entry) ∧
    (∀ a b, state.Live a → state.Live b → a.isCompound = true → b.isCompound = true →
      (a.looseEq b = true ↔ state.store.Shares a b)) ∧
    (∀ a b cell buffer, state.Live a → state.Live b → a.payload? = some (.shared cell) →
      b.payload? = some (.sequence buffer) → a.looseEq b = false ∧ b.looseEq a = false) ∧
    (∀ (literal : Literal) kind position payload store b, literal.isNew = true →
      literal.buildPayload allocator state.registers kind state.store = some (payload, store) →
      payload.isCompound = true → state.Live b →
      (Value.active ⟨position, payload⟩).looseEq b = false ∧
        b.looseEq (.active ⟨position, payload⟩) = false) ∧
    (∀ a : Value, a.isCompound = true →
      (∀ scalar, a.equalsPrimitive (.ofScalar scalar) = false) ∧
      ∀ b : Value, b.isCompound = false → a.looseEq b = false ∧ b.looseEq a = false) ∧
    (∀ steps a b, state.Live a → state.Live b → a.isCompound = true → b.isCompound = true →
      (state.runWith steps).1.Live a → (state.runWith steps).1.Live b →
      ((state.runWith steps).1.store.Shares a b ↔ state.store.Shares a b)) ∧
    (∀ steps x y a b,
      (∀ step ∈ steps, step.2.isWrite = true ∧ some x ≠ step.2.target? ∧
        some y ≠ step.2.target?) →
      state.value? x = some a → state.value? y = some b →
      (state.runWith steps).1.value? x = some a ∧
      (state.runWith steps).1.value? y = some b ∧
      ((state.runWith steps).1.step allocator (.compare x y)).2 =
        .answer (.comparison (a.2.2.looseEq b.2.2) (b.2.2.looseEq a.2.2)) ∧
      (state.step allocator (.compare x y)).2 =
        .answer (.comparison (a.2.2.looseEq b.2.2) (b.2.2.looseEq a.2.2))) := by
  obtain ⟨typing, sound⟩ := reachable.sound
  refine ⟨?_, fun _ _ => sound.looseEq_iff_shares, ?_, ?_, ?_, ?_, ?_⟩
  · intro a payload live holds compound
    obtain ⟨entry, member, leads⟩ := sound.exists_leadsTo live holds compound
    refine ⟨entry, ⟨member, leads⟩, ?_⟩
    rintro other ⟨otherMember, otherLeads⟩
    have same := otherLeads.primitive.symm.trans leads.primitive
    exact sound.entry_unique otherMember member (Primitive.object.inj same)
  · intro a b cell buffer liveA liveB holdsA holdsB
    have unequal := sound.not_looseEq_of_sorts liveA liveB holdsA holdsB
    exact ⟨unequal, (b.looseEq_comm a).trans unequal⟩
  · intro literal kind position payload store b isNew built compound live
    have unequal := sound.new_unequal isNew built compound live position
    exact ⟨unequal, (b.looseEq_comm _).trans unequal⟩
  · intro a compound
    refine ⟨Value.equalsPrimitive_ofScalar compound, ?_⟩
    intro b scalar
    have unequal : a.looseEq b = false := by
      apply Value.looseEq_eq_false compound
      intro handle _
      rw [Value.handles_of_not_isCompound scalar]
      exact List.not_mem_nil
    exact ⟨unequal, (b.looseEq_comm a).trans unequal⟩
  · intro steps a b liveA liveB compoundA compoundB stillA stillB
    obtain ⟨_, laterSound⟩ := sound.runWith steps
    rw [← sound.looseEq_iff_shares liveA liveB compoundA compoundB,
      laterSound.looseEq_iff_shares stillA stillB compoundA compoundB]
  · intro steps x y a b writes namedX namedY
    have keptX := value?_runWith_of_writes state fun step member =>
      ⟨(writes step member).1, (writes step member).2.1⟩
    have keptY := value?_runWith_of_writes state fun step member =>
      ⟨(writes step member).1, (writes step member).2.2⟩
    have laterX := keptX.trans namedX
    have laterY := keptY.trans namedY
    exact ⟨laterX, laterY, step_compare allocator laterX laterY,
      step_compare allocator namedX namedY⟩

/-- One cell behind a name and in values over two lists, and a sequence beside them. -/
def sharedNamed : State where
  store := ⟨[⟨2, 1, .buffer []⟩, ⟨1, 3, .cell (.plain (.text "a"))⟩]⟩
  registers := [("z", ⟨.value [.sequence (.kind .text)], .value (.active ⟨0, .sequence 2⟩)⟩),
    ("y", ⟨.value [.boolean, .shared (.kind .text)], .value (.active ⟨1, .shared 1⟩)⟩),
    ("x", ⟨.value [.shared (.kind .text)], .value (.active ⟨0, .shared 1⟩)⟩),
    ("c", ⟨.kind (.shared (.kind .text)), .plain (.shared 1)⟩)]

private theorem sharedNamed_reachable : sharedNamed.Reachable := by
  have cell := Reachable.initial.create .ascending "c" (.kind (.shared (.kind .text)))
    (.shared (.text "a")) rfl rfl
  have one := cell.create .ascending "x" (.value [.shared (.kind .text)]) (.active 0 (.copy "c"))
    rfl rfl
  have two := one.create .ascending "y" (.value [.boolean, .shared (.kind .text)])
    (.active 1 (.copy "c")) rfl rfl
  exact two.create .ascending "z" (.value [.sequence (.kind .text)]) (.active 0 (.sequence [])) rfl rfl

def rewriteShared : List (Allocator × Op) :=
  [(.ascending, .shared "c" (.write (.text "b"))),
    (.ascending, .shared "c" (.replace (.text "") none))]

/-- The values over two lists are equal before and after the cell is written, neither equals the
sequence, and a new cell with the same content equals none of them. -/
theorem sharedNamed_compared :
    sharedNamed.Reachable ∧
    sharedNamed.store.Shares (.active ⟨0, .shared 1⟩) (.active ⟨1, .shared 1⟩) ∧
    (Value.active ⟨0, .shared 1⟩).looseEq (.active ⟨0, .sequence 2⟩) = false ∧
    (Value.active ⟨0, .shared 3⟩).looseEq (.active ⟨1, .shared 1⟩) = false ∧
    ((sharedNamed.runWith rewriteShared).1.step .ascending (.compare "x" "y")).2 =
      .answer (.comparison true true) := by
  have x : sharedNamed.value? "x" = some (_, _, .active ⟨0, .shared 1⟩) := rfl
  have y : sharedNamed.value? "y" = some (_, _, .active ⟨1, .shared 1⟩) := rfl
  have z : sharedNamed.value? "z" = some (_, _, .active ⟨0, .sequence 2⟩) := rfl
  have built : (Literal.shared (.text "a")).buildPayload .ascending sharedNamed.registers
      (.shared (.kind .text)) sharedNamed.store = some (.shared 3, _) := rfl
  obtain ⟨_, equal, sorts, new, _, _, writes⟩ := identity_is_sharing sharedNamed_reachable .ascending
  refine ⟨sharedNamed_reachable, ?_, ?_, ?_, ?_⟩
  · exact (equal _ _ (live_of_value? x) (live_of_value? y) rfl rfl).mp rfl
  · exact (sorts _ _ 1 2 (live_of_value? x) (live_of_value? z) rfl rfl).1
  · exact (new _ _ 0 _ _ _ rfl built rfl (live_of_value? y)).1
  · exact (writes rewriteShared "x" "y" _ _ (by decide) x y).2.2.1

end State

end LooseValue
