import LooseValue.Proofs.Machine.Effects
import LooseValue.Proofs.Machine.Frame
import LooseValue.Proofs.Store.Ownership

/-!
# Sequences of defaults

Each element of a sequence of defaults is made on its own, so that it owns its storage: all of it is
new, and no other element leads to any of it. Writes through the other elements leave an element
alone, and elements stay apart as long as nothing that leads to the one is stored behind another.
-/

set_option autoImplicit false

namespace LooseValue

/-! ## Defaults -/

mutual

/-- What is seen of the default of a type. -/
def Ty.defaultTree : Ty → Tree
  | .kind kind => kind.defaultTree
  | .value _ => .undefined
  | .dynamic => .undefined

def Kind.defaultTree : Kind → Tree
  | .boolean => .boolean false
  | .number => .number (.zero false)
  | .text => .text ""
  | .shared payload => .shared payload.defaultTree
  | .sequence _ => .sequence []

end

section Making

variable {allocator : Allocator}

mutual

private theorem Ty.owned_makeDefault : ∀ (type : Ty) (store : Store),
    store.Owned (type.makeDefault allocator store).2 (type.makeDefault allocator store).1.handles
  | .kind kind, store => Kind.owned_makeDefault kind store
  | .value _, store => store.owned_nil
  | .dynamic, store => store.owned_nil

private theorem Kind.owned_makeDefault : ∀ (kind : Kind) (store : Store),
    store.Owned (kind.makeDefault allocator store).2 (kind.makeDefault allocator store).1.handles
  | .boolean, store => store.owned_nil
  | .number, store => store.owned_nil
  | .text, store => store.owned_nil
  | .shared payload, store =>
      have content := Ty.owned_makeDefault payload store
      Store.Owned.allocate (.cell _) content allocator
  | .sequence _, store => Store.Owned.allocate (.buffer []) store.owned_nil allocator

end

mutual

private theorem Ty.tree?_makeDefault : ∀ (type : Ty) (store : Store),
    (type.makeDefault allocator store).2.tree? (type.makeDefault allocator store).1 =
      some type.defaultTree
  | .kind kind, store => Kind.tree?_makeDefault kind store
  | .value _, _ => rfl
  | .dynamic, _ => rfl

private theorem Kind.tree?_makeDefault : ∀ (kind : Kind) (store : Store),
    (kind.makeDefault allocator store).2.tree? (.plain (kind.makeDefault allocator store).1) =
      some kind.defaultTree
  | .boolean, store => store.tree?_boolean false
  | .number, store => store.tree?_number (.zero false)
  | .text, store => store.tree?_text ""
  | .shared payload, store =>
      (payload.owned_makeDefault store).grounded.tree?_allocate_cell (payload.tree?_makeDefault store)
  | .sequence _, store => Store.Grounded.tree?_allocate_buffer store.grounded_nil rfl

end

/-- Whether the default of a type has storage depends on the type alone. -/
theorem Ty.handles_makeDefault (type : Ty) (store other : Store)
    (bare : (type.makeDefault allocator store).1.handles = []) :
    (type.makeDefault allocator other).1.handles = [] := by
  cases type with
  | value | dynamic => rfl
  | kind kind =>
      cases kind with
      | boolean | number | text => rfl
      | shared | sequence => cases bare

/-- Items that were made one after the other, each the default of the type with storage of its own. -/
structure Store.MakesDefaults (allocator : Allocator) (type : Ty) (before after : Store)
    (items : List Item) : Prop where
  owned : before.Owned after (items.flatMap Item.handles)
  shown : ∀ item ∈ items, after.tree? item = some type.defaultTree
  apart : items.Pairwise fun one other => after.Apart one.handles other.handles
  default : ∀ item ∈ items, ∃ origin, item = (type.makeDefault allocator origin).1

private theorem Store.reaches_flatMap {store : Store} {items : List Item} {item : Item}
    (member : item ∈ items) :
    ∀ handle ∈ item.handles, store.Reaches (items.flatMap Item.handles) handle :=
  fun _ inside => .handle (List.mem_flatMap.mpr ⟨item, member, inside⟩)

theorem Store.MakesDefaults.cons {type : Ty} {store after : Store} {items : List Item}
    (rest : MakesDefaults allocator type (type.makeDefault allocator store).2 after items) :
    MakesDefaults allocator type store after ((type.makeDefault allocator store).1 :: items) where
  owned := (type.owned_makeDefault store).append rest.owned
  shown := by
    intro item member
    rcases List.mem_cons.mp member with rfl | later
    · rw [(type.owned_makeDefault store).grounded.tree?_keep rest.owned.keeps]
      exact type.tree?_makeDefault store
    · exact rest.shown item later
  apart := by
    refine List.pairwise_cons.mpr ⟨?_, rest.apart⟩
    intro other member
    exact ((type.owned_makeDefault store).apart rest.owned).mono (reaches_flatMap member)
  default := by
    intro item member
    rcases List.mem_cons.mp member with rfl | later
    · exact ⟨store, rfl⟩
    · exact rest.default item later

theorem Store.MakesDefaults.grounded {type : Ty} {store after : Store} {items : List Item}
    (defaults : MakesDefaults allocator type store after items) :
    ∀ item ∈ items, after.Grounded item.handles :=
  fun _ member => defaults.owned.grounded.mono (reaches_flatMap member)

/-- In the buffer that is made of the items they are as they were made, and so they are in every
store that agrees with it. -/
theorem Store.MakesDefaults.agree {type : Ty} {store made later : Store} {items : List Item}
    (defaults : MakesDefaults allocator type store made items)
    (agrees : (made.allocate allocator (.buffer items)).2.AgreesFrom
      [(made.allocate allocator (.buffer items)).1] later) :
    later.items (made.allocate allocator (.buffer items)).1 = items ∧
    ∀ item ∈ items, made.AgreesFrom item.handles later ∧
      ∀ address, made.Reaches item.handles address →
        later.Reaches [(made.allocate allocator (.buffer items)).1] address := by
  have allocated := made.block?_allocate_self allocator (.buffer items)
  constructor
  · rw [items_eq, agrees _ (.handle List.mem_cons_self), allocated]
  · intro item member
    have inside : ∀ handle ∈ item.handles, (made.allocate allocator (.buffer items)).2.Reaches
        [(made.allocate allocator (.buffer items)).1] handle := by
      intro handle held
      exact .inside (.handle List.mem_cons_self)
        ⟨_, allocated, List.mem_flatMap.mpr ⟨item, member, held⟩⟩
    have early := (made.keeps_allocate allocator (.buffer items)).agreesFrom
      (defaults.grounded item member)
    have same := early.trans (agrees.mono inside)
    refine ⟨same, ?_⟩
    intro address reached
    refine (same.reaches_iff.mpr reached).trans ?_
    exact fun handle held => agrees.reaches_iff.mpr (inside handle held)

private theorem Literal.buildAll_defaults (allocator : Allocator)
    (registers : List (String × Register))
    (type : Ty) (length : Nat) (store : Store) : ∃ items after,
      buildAll allocator registers (List.replicate length .default) type store =
        some (items, after) ∧
      items.length = length ∧ Store.MakesDefaults allocator type store after items := by
  induction length generalizing store with
  | zero =>
      refine ⟨[], store, rfl, rfl, store.owned_nil, ?_, .nil, ?_⟩
      · exact fun _ member => (List.not_mem_nil member).elim
      · exact fun _ member => (List.not_mem_nil member).elim
  | succ length ih =>
      obtain ⟨items, after, built, counted, rest⟩ := ih (type.makeDefault allocator store).2
      refine ⟨_, after, ?_, congrArg (· + 1) counted, rest.cons⟩
      simp only [List.replicate_succ, buildAll, build, built]

theorem Literal.build_defaults (allocator : Allocator) (registers : List (String × Register))
    (type : Ty) (length : Nat) (store : Store) : ∃ items made,
      (Literal.defaults length).build allocator registers (.kind (.sequence type)) store =
        some (.plain (.sequence (made.allocate allocator (.buffer items)).1),
          (made.allocate allocator (.buffer items)).2) ∧
      items.length = length ∧ Store.MakesDefaults allocator type store made items := by
  obtain ⟨items, made, listed, rest⟩ := buildAll_defaults allocator registers type length store
  refine ⟨items, made, ?_, rest⟩
  simp only [defaults, build, listed]

end Making

namespace State

variable {typing laterTyping : StoreTyping} {state next : State} {allocator : Allocator}
  {name : String} {type : Ty} {buffer address : Address} {items : List Item} {op : Op}
  {block : Block} {target : Option String} {spared : Nat} {item : Item} {tree : Tree}

/-! ## Creation -/

theorem step_create {literal : Literal} {made : Store}
    (built : literal.build allocator state.registers type state.store = some (item, made))
    (name : String) : state.step allocator (.create name type literal) =
      produce { state with store := made } (some name) ⟨type, item⟩ := by
  simp [step, step?, built]

/-- After an item was made and named, what the name held before is dropped. -/
theorem Sound.create_drops {literal : Literal} {made : Store} (sound : state.Sound typing [])
    (built : literal.build allocator state.registers type state.store = some (item, made))
    (name : String) :
    let next := (state.step allocator (.create name type literal)).1
    next.register? name = some ⟨type, item⟩ ∧
      ∃ dropped, made.Counted (dropped ++ next.roots) ∧ next.store = made.release dropped := by
  intro next
  have stepped : next = State.put { state with store := made } name ⟨type, item⟩ :=
    congrArg Prod.fst (step_create built name)
  obtain ⟨extended, _, kept, typed⟩ := sound.build built
  have assigned : Sound extended (heldBy { state with store := made } name ++ [])
      (State.assign { state with store := made } name ⟨type, item⟩) := kept.assign typed name
  rw [List.append_nil] at assigned
  rw [stepped]
  exact ⟨List.lookup_cons_self, _, assigned.store.counted, rfl⟩

/-- The name holds a sequence with the given items. -/
structure Lists (state : State) (name : String) (type : Ty) (buffer : Address)
    (items : List Item) : Prop where
  named : state.register? name = some ⟨.kind (.sequence type), .plain (.sequence buffer)⟩
  stored : state.store.items buffer = items

/-- The elements of a new sequence: defaults that were made one by one, each with storage of its own
that was not there before and that nothing else holds. -/
structure Fresh (allocator : Allocator) (before state : State) (type : Ty) (buffer : Address)
    (items : List Item) : Prop where
  made : ∀ item ∈ items, ∃ origin, item = (type.makeDefault allocator origin).1
  shown : ∀ item ∈ items, state.store.tree? item = some type.defaultTree
  grounded : ∀ item ∈ items, state.store.Grounded item.handles
  apart : items.Pairwise fun one other => state.store.Apart one.handles other.handles
  new : ∀ address, state.store.Reaches [buffer] address ↔
    address ∈ state.store.addresses ∧ address ∉ before.store.addresses
  alone : ∀ address, state.store.Reaches [buffer] address → state.store.holders address = 1

theorem Sound.defaults_created (sound : state.Sound typing []) (allocator : Allocator)
    (name : String) (type : Ty) (length : Nat) :
    let next := (state.step allocator
      (.create name (.kind (.sequence type)) (.defaults length))).1
    ∃ buffer items, items.length = length ∧ next.Lists name type buffer items ∧
      Fresh allocator state next type buffer items := by
  intro next
  obtain ⟨items, made, built, counted, defaults⟩ :=
    Literal.build_defaults allocator state.registers type length state.store
  obtain ⟨named, dropped, rooted, released⟩ := sound.create_drops built name
  have owned := defaults.owned.allocate (.buffer items) allocator
  obtain ⟨agrees, new, alone⟩ := owned.release rooted (mem_roots_of_register? named)
  rw [← released] at agrees new alone
  obtain ⟨stored, same⟩ := defaults.agree agrees
  have alive : ∀ item ∈ items, ∀ address, made.Reaches item.handles address →
      address ∈ next.store.addresses := by
    intro item member address reached
    exact ((new address).mp ((same item member).2 address reached)).1
  refine ⟨_, items, counted, ⟨named, stored⟩, defaults.default, ?_, ?_, ?_, new, alone⟩
  · intro item member
    have grounded := defaults.grounded item member
    obtain ⟨tree, shown, kept⟩ := (same item member).1.tree? grounded.acyclic grounded.live
      (alive item member)
    rw [kept, ← shown, defaults.shown item member]
  · intro item member
    refine ⟨(same item member).1.acyclicFrom (defaults.grounded item member).acyclic, ?_⟩
    exact fun address reached => alive item member address ((same item member).1.reaches reached)
  · refine defaults.apart.imp_of_mem ?_
    intro one other first second apart
    exact apart.agree (same one first).1 (same other second).1

/-! ## Writes beside an element -/

/-- The items lead to the address from another position than the spared one. -/
def LeadsBeside (store : Store) (items : List Item) (spared : Nat) (address : Address) : Prop :=
  ∃ index other, index ≠ spared ∧ items[index]? = some other ∧ store.Reaches other.handles address

/-- An element of a named sequence, as it looks and apart from all others. Either all elements have
storage or none has. -/
structure Element (state : State) (name : String) (type : Ty) (buffer : Address)
    (items : List Item) (spared : Nat) (item : Item) (tree : Tree) : Prop
    extends Lists state name type buffer items where
  found : items[spared]? = some item
  grounded : state.store.Grounded item.handles
  shown : state.store.tree? item = some tree
  apart : ∀ index other, index ≠ spared → items[index]? = some other →
    state.store.Apart other.handles item.handles
  uniform : ∀ one ∈ items, ∀ other ∈ items, one.handles = [] → other.handles = []

/-- What the operation writes, if anything, is behind another element, and of the handles that it
brings there none leads to the element. -/
def StepsBeside (allocator : Allocator) (items : List Item) (spared : Nat) (item : Item)
    (state : State) (op : Op) : Prop :=
  ∀ address block target, state.Writes allocator op address block target →
    LeadsBeside state.store items spared address ∧
    ∀ handle ∈ block.handles, ¬ state.store.Points address handle →
      (state.step allocator op).1.store.Apart [handle] item.handles

/-- A run that keeps what the name holds and writes beside an element of it. -/
inductive RunsBeside (name : String) (items : List Item) (spared : Nat) (item : Item) :
    State → List (Allocator × Op) → Prop where
  | nil {state : State} : RunsBeside name items spared item state []
  | cons {state : State} {allocator : Allocator} {op : Op} {steps : List (Allocator × Op)} :
      (state.step allocator op).1.register? name = state.register? name →
      state.StepsBeside allocator items spared item op →
      RunsBeside name items spared item (state.step allocator op).1 steps →
      RunsBeside name items spared item state ((allocator, op) :: steps)

theorem Lists.block? (lists : state.Lists name type buffer items) (sound : state.Sound typing []) :
    state.store.block? buffer = some (.buffer items) := by
  rw [(sound.buffer_of_register? lists.named).2.1, lists.stored]

theorem Lists.live (lists : state.Lists name type buffer items) (sound : state.Sound typing [])
    (member : item ∈ items) : ∀ handle ∈ item.handles, handle ∈ state.store.addresses := by
  intro handle inside
  exact sound.store.counted.mem_addresses_of_points
    ⟨_, lists.block? sound, List.mem_flatMap.mpr ⟨item, member, inside⟩⟩

theorem Lists.frame {changed : Address → Prop} (lists : state.Lists name type buffer items)
    (sound : state.Sound typing []) (nextSound : next.Sound laterTyping [])
    (frame : state.store.Frame changed next.store)
    (kept : next.register? name = state.register? name) (untouched : ¬ changed buffer) :
    next.Lists name type buffer items := by
  have named := kept.trans lists.named
  refine ⟨named, ?_⟩
  have same := frame buffer untouched _ _ (lists.block? sound)
    (nextSound.buffer_of_register? named).2.1
  exact Block.buffer.inj same

theorem Overwrites.block? {stored : Block} (overwrites : state.Overwrites address block target next)
    (found : next.store.block? address = some stored) : stored = block := by
  obtain ⟨built, _, dropped, _, distinct, _, same⟩ := overwrites.store
  rw [same] at found
  rw [← Store.addresses_write] at distinct
  exact Store.block?_of_write_self (Store.block?_of_block?_release distinct found)

theorem Fresh.element {before : State} (fresh : Fresh allocator before state type buffer items)
    (lists : state.Lists name type buffer items) (found : items[spared]? = some item) :
    Element state name type buffer items spared item type.defaultTree where
  toLists := lists
  found := found
  grounded := fresh.grounded item (List.mem_of_getElem? found)
  shown := fresh.shown item (List.mem_of_getElem? found)
  apart := by
    intro index other different otherFound
    obtain ⟨inside, rfl⟩ := List.getElem?_eq_some_iff.mp found
    obtain ⟨otherInside, rfl⟩ := List.getElem?_eq_some_iff.mp otherFound
    have pairs := List.pairwise_iff_getElem.mp fresh.apart
    rcases Nat.lt_or_gt_of_ne different with earlier | later
    · exact pairs index spared otherInside inside earlier
    · exact (pairs spared index inside otherInside later).symm
  uniform := by
    intro one first other second bare
    obtain ⟨origin, rfl⟩ := fresh.made one first
    obtain ⟨otherOrigin, rfl⟩ := fresh.made other second
    exact type.handles_makeDefault origin otherOrigin bare

namespace Element

/-- A step that changes nothing of the element leaves it as it looks. -/
theorem kept {changed : Address → Prop}
    (element : Element state name type buffer items spared item tree)
    (nextLists : next.Lists name type buffer items) (sound : state.Sound typing [])
    (nextSound : next.Sound laterTyping []) (frame : state.store.Frame changed next.store)
    (untouched : ∀ address, state.store.Reaches item.handles address → ¬ changed address) :
    state.store.AgreesFrom item.handles next.store ∧ next.store.Grounded item.handles ∧
      next.store.tree? item = some tree := by
  have member := List.mem_of_getElem? element.found
  obtain ⟨agrees, alive⟩ := frame.agreesFrom_of_live sound.counted nextSound.counted
    (element.live sound member) (nextLists.live nextSound member) untouched
  obtain ⟨seen, shown, kept⟩ :=
    agrees.tree? element.grounded.acyclic element.grounded.live alive
  refine ⟨agrees, ⟨agrees.acyclicFrom element.grounded.acyclic, ?_⟩, ?_⟩
  · exact fun address reached => alive address (agrees.reaches reached)
  · rw [kept, ← shown, element.shown]

/-- No other element leads back to the buffer, since from there it would lead to this one. -/
theorem ne_buffer (element : Element state name type buffer items spared item tree)
    (sound : state.Sound typing []) (beside : LeadsBeside state.store items spared address) :
    address ≠ buffer := by
  rintro rfl
  obtain ⟨index, other, different, found, reached⟩ := beside
  have member := List.mem_of_getElem? element.found
  cases handles : item.handles with
  | nil =>
      rw [element.uniform item member other (List.mem_of_getElem? found) handles] at reached
      exact Store.not_reaches_nil reached
  | cons handle rest =>
      have held : handle ∈ item.handles := by
        rw [handles]
        exact List.mem_cons_self
      have further : state.store.Reaches other.handles handle :=
        .inside reached ⟨_, element.block? sound, List.mem_flatMap.mpr ⟨item, member, held⟩⟩
      exact element.apart index other different found handle further (.handle held)

/-- Handles come and go, and the elements stay as far apart as they were. -/
theorem rehandled (element : Element state name type buffer items spared item tree)
    (sound : state.Sound typing []) (nextSound : next.Sound laterTyping [])
    (rehandled : state.store.Rehandled next.store)
    (kept : next.register? name = state.register? name) :
    Element next name type buffer items spared item tree := by
  have frame := rehandled.frame sound.counted.distinct
  have nextLists := element.frame sound nextSound frame kept fun changed => changed
  obtain ⟨agrees, grounded, shown⟩ :=
    element.kept nextLists sound nextSound frame fun _ _ changed => changed
  refine ⟨nextLists, element.found, grounded, shown, ?_, element.uniform⟩
  intro index other different found
  have member := List.mem_of_getElem? found
  obtain ⟨otherAgrees, _⟩ := frame.agreesFrom_of_live sound.counted nextSound.counted
    (element.live sound member) (nextLists.live nextSound member) fun _ _ changed => changed
  exact (element.apart index other different found).agree otherAgrees agrees

/-- A write through another element, whatever it stores there. -/
theorem write_beside (element : Element state name type buffer items spared item tree)
    (sound : state.Sound typing []) (writes : state.Writes allocator op address block target)
    (kept : (state.step allocator op).1.register? name = state.register? name)
    (beside : LeadsBeside state.store items spared address) :
    let next := (state.step allocator op).1
    next.Lists name type buffer items ∧ state.store.AgreesFrom item.handles next.store ∧
      next.store.Grounded item.handles ∧ next.store.tree? item = some tree := by
  intro next
  obtain ⟨_, nextSound⟩ := sound.step allocator op
  have overwrites := writes.overwrites sound
  have nextLists : next.Lists name type buffer items :=
    element.frame sound nextSound overwrites.frame kept
      (Ne.symm (element.ne_buffer sound beside))
  refine ⟨nextLists, element.kept nextLists sound nextSound overwrites.frame ?_⟩
  rintro candidate reached rfl
  obtain ⟨index, other, different, found, otherReached⟩ := beside
  exact element.apart index other different found candidate otherReached reached

/-- One step that keeps the sequence and writes beside the element, if it writes at all, nothing that
leads to it. -/
theorem step (element : Element state name type buffer items spared item tree)
    (sound : state.Sound typing [])
    (kept : (state.step allocator op).1.register? name = state.register? name)
    (beside : state.StepsBeside allocator items spared item op) :
    Element (state.step allocator op).1 name type buffer items spared item tree := by
  obtain ⟨_, nextSound⟩ := sound.step allocator op
  rcases sound.writes_or_rehandled allocator op with ⟨address, block, target, writes⟩ | rehandled
  · obtain ⟨leads, brings⟩ := beside address block target writes
    obtain ⟨nextLists, agrees, grounded, shown⟩ := element.write_beside sound writes kept leads
    refine ⟨nextLists, element.found, grounded, shown, ?_, element.uniform⟩
    intro index other different found lower reached
    have overwrites := writes.overwrites sound
    have live := element.live sound (List.mem_of_getElem? found)
    -- What the other element leads to now it led to before, or it is behind a new handle.
    rcases overwrites.frame.reaches_or_brought sound.counted (fun _ => overwrites.block?) live
      reached with ⟨old, _⟩ | ⟨handle, brought, new, further⟩
    · exact fun own => element.apart index other different found lower old (agrees.reaches own)
    · exact brings handle brought new lower further
  · exact element.rehandled sound nextSound rehandled kept

theorem runWith {steps : List (Allocator × Op)}
    (element : Element state name type buffer items spared item tree)
    (sound : state.Sound typing []) (beside : RunsBeside name items spared item state steps) :
    Element (state.runWith steps).1 name type buffer items spared item tree := by
  induction beside generalizing typing with
  | nil => exact element
  | @cons state allocator op steps kept first _ ih =>
      obtain ⟨_, nextSound⟩ := sound.step allocator op
      exact ih (element.step sound kept first) nextSound

end Element

/-- A sequence of defaults has as many elements as it was asked for, which all look like the default
and have storage of their own. An element stays as it is while others are written to, as long as
what is stored behind those does not lead to it; and no write through another element changes it,
whatever is written. -/
theorem defaults_independent (reachable : state.Reachable) (allocator : Allocator) (name : String)
    (type : Ty) (length : Nat) :
    let next := (state.step allocator
      (.create name (.kind (.sequence type)) (.defaults length))).1
    ∃ buffer items, items.length = length ∧ next.Lists name type buffer items ∧
      Fresh allocator state next type buffer items ∧
      ∀ spared item steps, items[spared]? = some item →
        RunsBeside name items spared item next steps →
        let last := (next.runWith steps).1
        last.Lists name type buffer items ∧ last.store.tree? item = some type.defaultTree ∧
        ∀ later op address block target, last.Writes later op address block target →
          (last.step later op).1.register? name = last.register? name →
          LeadsBeside last.store items spared address →
          (last.step later op).1.Lists name type buffer items ∧
            (last.step later op).1.store.tree? item = some type.defaultTree := by
  intro next
  obtain ⟨typing, sound⟩ := reachable.sound
  obtain ⟨buffer, items, counted, lists, fresh⟩ := sound.defaults_created allocator name type length
  obtain ⟨_, nextSound⟩ := sound.step allocator
    (.create name (.kind (.sequence type)) (.defaults length))
  refine ⟨buffer, items, counted, lists, fresh, ?_⟩
  intro spared item steps found beside last
  have element := (fresh.element lists found).runWith nextSound beside
  refine ⟨element.toLists, element.shown, ?_⟩
  intro later op address block target writes kept leads
  obtain ⟨_, lastSound⟩ := nextSound.runWith steps
  obtain ⟨keptLists, _, _, shown⟩ := element.write_beside lastSound writes kept leads
  exact ⟨keptLists, shown⟩

def cellPair : State :=
  (initial.step .ascending
    (.create "s" (.kind (.sequence (.kind (.shared (.kind .number))))) (.defaults 2))).1

/-- The first cell is copied out of the sequence and written to. -/
def rewriteFirst : List (Allocator × Op) :=
  [(.ascending, .sequence "s" (.get 0 (some "c"))),
    (.ascending, .shared "c" (.write (.number (.zero true))))]

private theorem cellPair_beside :
    RunsBeside "s" [.plain (.shared 1), .plain (.shared 2)] 1 (.plain (.shared 2))
      cellPair rewriteFirst := by
  refine .cons (by decide +kernel) ?_ (.cons (by decide +kernel) ?_ .nil)
  · intro address block target writes
    cases writes with
    | item _ _ _ exchanges => simp at exchanges
  · intro address block target writes
    cases writes with
    | content _ _ exchanges => simp at exchanges
    | write named built =>
        have copied : (cellPair.step .ascending (.sequence "s" (.get 0 (some "c")))).1.register? "c" =
            some ⟨.kind (.shared (.kind .number)), .plain (.shared 1)⟩ := by decide +kernel
        cases copied.symm.trans named
        cases built
        refine ⟨⟨0, .plain (.shared 1), by decide, rfl, .handle List.mem_cons_self⟩, ?_⟩
        intro handle inside
        cases inside

/-- The first of two cells is written to, and the second looks as before. -/
theorem cellPair_spared :
    cellPair.Lists "s" (.kind (.shared (.kind .number))) 3 [.plain (.shared 1), .plain (.shared 2)] ∧
    (cellPair.runWith rewriteFirst).1.store.content 1 = .plain (.number (.zero true)) ∧
    (cellPair.runWith rewriteFirst).1.store.tree? (.plain (.shared 2)) =
      some (.shared (.number (.zero false))) := by
  obtain ⟨buffer, items, _, lists, _, spares⟩ :=
    defaults_independent .initial .ascending "s" (.kind (.shared (.kind .number))) 2
  have named : some (Register.mk (.kind (.sequence (.kind (.shared (.kind .number)))))
      (.plain (.sequence 3))) = some ⟨_, .plain (.sequence buffer)⟩ := lists.named
  cases named
  have stored : [Item.plain (.shared 1), .plain (.shared 2)] = items := by
    rw [← lists.stored]
    decide +kernel
  subst stored
  obtain ⟨_, shown, _⟩ := spares 1 _ rewriteFirst rfl cellPair_beside
  exact ⟨lists, by decide +kernel, shown⟩

end State

end LooseValue
