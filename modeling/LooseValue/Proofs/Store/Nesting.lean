import LooseValue.Proofs.Store.Acyclicity
import LooseValue.Proofs.Store.Soundness
import LooseValue.Proofs.Store.Texts

/-!
# Nesting of types and of storage

The nesting of a finite type is the number of references and sequences on its longest way down. A
block of a well-typed store promises more nesting than anything it holds, so that from a block of a
finite type no way leads back to it; and whatever follows handles to their ends, to show an item or
to drop it, is done after as many handles as the type has levels.
-/

set_option autoImplicit false

namespace LooseValue

/-! ## Finite types -/

mutual

/-- Whether a kind is written without the type that contains itself. -/
def Kind.isFinite : Kind → Bool
  | .boolean => true
  | .number => true
  | .text => true
  | .shared payload => payload.isFinite
  | .sequence payload => payload.isFinite

def Ty.isFinite : Ty → Bool
  | .kind kind => kind.isFinite
  | .value kinds => Kind.allFinite kinds
  | .dynamic => false

def Kind.allFinite : List Kind → Bool
  | [] => true
  | kind :: kinds => kind.isFinite && Kind.allFinite kinds

end

mutual

/-- The number of references and sequences on the longest way down a kind. -/
def Kind.nesting : Kind → Nat
  | .boolean => 0
  | .number => 0
  | .text => 0
  | .shared payload => payload.nesting + 1
  | .sequence payload => payload.nesting + 1

def Ty.nesting : Ty → Nat
  | .kind kind => kind.nesting
  | .value kinds => Kind.nestingAll kinds
  | .dynamic => 0

/-- The nesting of the deepest kind of a list. -/
def Kind.nestingAll : List Kind → Nat
  | [] => 0
  | kind :: kinds => max kind.nesting (Kind.nestingAll kinds)

end

theorem Kind.allFinite_iff {kinds : List Kind} :
    Kind.allFinite kinds = true ↔ ∀ kind ∈ kinds, kind.isFinite = true := by
  induction kinds with
  | nil => simp [Kind.allFinite]
  | cons kind kinds ih => simp [Kind.allFinite, ih]

private theorem Kind.nesting_le_nestingAll {kinds : List Kind} {kind : Kind}
    (member : kind ∈ kinds) :
    kind.nesting ≤ Kind.nestingAll kinds := by
  induction kinds with
  | nil => cases member
  | cons head kinds ih =>
      rw [Kind.nestingAll]
      rcases List.mem_cons.mp member with rfl | later
      · exact Nat.le_max_left ..
      · exact Nat.le_trans (ih later) (Nat.le_max_right ..)

/-- The kinds that an item of a finite type can hold are finite and nest no deeper. -/
theorem Ty.isFinite_of_mem {type : Ty} {kind : Kind} (finite : type.isFinite = true)
    (member : kind ∈ type.members) : kind.isFinite = true ∧ kind.nesting ≤ type.nesting := by
  cases type with
  | kind own =>
      cases List.mem_singleton.mp member
      exact ⟨finite, Nat.le_refl _⟩
  | value kinds => exact ⟨Kind.allFinite_iff.mp finite kind member, Kind.nesting_le_nestingAll member⟩
  | dynamic => cases finite

mutual

/-- The number of references and sequences on the longest way down a tree. -/
def Tree.nesting : Tree → Nat
  | .undefined => 0
  | .active _ payload => payload.nesting
  | .boolean _ => 0
  | .number _ => 0
  | .text _ => 0
  | .shared referent => referent.nesting + 1
  | .sequence items => Tree.nestingAll items + 1

/-- The nesting of the deepest tree of a list. -/
def Tree.nestingAll : List Tree → Nat
  | [] => 0
  | tree :: trees => max tree.nesting (Tree.nestingAll trees)

end

private theorem Tree.nestingAll_le {trees : List Tree} {depth : Nat}
    (bounded : ∀ tree ∈ trees, tree.nesting ≤ depth) : Tree.nestingAll trees ≤ depth := by
  induction trees with
  | nil => exact Nat.zero_le depth
  | cons tree trees ih =>
      rw [Tree.nestingAll]
      exact Nat.max_le.mpr ⟨bounded tree List.mem_cons_self,
        ih fun other member => bounded other (List.mem_cons_of_mem _ member)⟩

theorem exists_mem_of_mapM {α β : Type} {f : α → Option β} {items : List α} {results : List β}
    {result : β} (mapped : items.mapM f = some results) (member : result ∈ results) :
    ∃ item ∈ items, f item = some result := by
  induction items generalizing results with
  | nil =>
      cases mapped
      cases member
  | cons item items ih =>
      simp only [List.mapM_cons, Option.bind_eq_bind, Option.bind_eq_some_iff, Option.pure_def,
        Option.some.injEq] at mapped
      obtain ⟨first, here, rest, later, rfl⟩ := mapped
      rcases List.mem_cons.mp member with rfl | inside
      · exact ⟨item, List.mem_cons_self, here⟩
      · obtain ⟨other, listed, shown⟩ := ih later inside
        exact ⟨other, List.mem_cons_of_mem _ listed, shown⟩

private theorem Item.nesting_of_tree? {f : Payload → Option Tree} {item : Item} {tree : Tree}
    {depth : Nat}
    (bounded : ∀ payload tree, f payload = some tree → tree.nesting ≤ depth)
    (shown : item.tree? f = some tree) : tree.nesting ≤ depth := by
  rcases item with payload | (_ | ⟨position, payload⟩)
  · exact bounded payload tree shown
  · cases shown
    exact Nat.zero_le depth
  · obtain ⟨inner, here, rfl⟩ := Option.map_eq_some_iff.mp shown
    exact bounded payload inner here

variable {typing : StoreTyping}

/-- The address is typed by a finite kind that nests no deeper than `depth`. -/
def StoreTyping.Within (typing : StoreTyping) (depth : Nat) (address : Address) : Prop :=
  ∃ kind, typing address = some kind ∧ kind.isFinite = true ∧ kind.nesting ≤ depth

theorem StoreTyping.Within.mono {depth deeper : Nat} {address : Address}
    (within : typing.Within depth address) (enough : depth ≤ deeper) :
    typing.Within deeper address := by
  obtain ⟨kind, known, finite, nested⟩ := within
  exact ⟨kind, known, finite, Nat.le_trans nested enough⟩

private theorem Payload.HasKind.typing_of_mem {payload : Payload} {kind : Kind} {handle : Address}
    (typed : payload.HasKind typing kind) (member : handle ∈ payload.handles) :
    typing handle = some kind := by
  cases typed with
  | boolean | number | text => cases member
  | shared known | sequence known =>
      cases List.mem_singleton.mp member
      exact known

private theorem Item.HasType.exists_kind {item : Item} {type : Ty} {payload : Payload}
    (typed : item.HasType typing type) (held : item.payload? = some payload) :
    ∃ kind ∈ type.members, payload.HasKind typing kind := by
  cases typed with
  | plain typed =>
      cases held
      exact ⟨_, List.mem_singleton_self _, typed⟩
  | value isValue typed =>
      cases typed with
      | undefined => cases held
      | active found typed =>
          cases held
          exact ⟨_, List.mem_of_getElem? found, typed⟩

theorem Item.HasType.within {item : Item} {type : Ty} (typed : item.HasType typing type)
    (finite : type.isFinite = true) : ∀ handle ∈ item.handles, typing.Within type.nesting handle := by
  intro handle member
  have held : ∃ payload, item.payload? = some payload := by
    rcases item with payload | (_ | alternative)
    · exact ⟨payload, rfl⟩
    · cases member
    · exact ⟨alternative.payload, rfl⟩
  obtain ⟨payload, held⟩ := held
  rw [← Item.handles_of_payload? held] at member
  obtain ⟨kind, listed, payloadTyped⟩ := typed.exists_kind held
  obtain ⟨kindFinite, nested⟩ := Ty.isFinite_of_mem finite listed
  exact ⟨kind, payloadTyped.typing_of_mem member, kindFinite, nested⟩

/-- What a block holds nests less than the block. -/
theorem Block.HasKind.within {block : Block} {kind : Kind} (typed : block.HasKind typing kind)
    (finite : kind.isFinite = true) : ∃ inner, kind.nesting = inner + 1 ∧
      ∀ handle ∈ block.handles, typing.Within inner handle := by
  cases typed with
  | @cell content payload contentTyped =>
      exact ⟨payload.nesting, rfl, contentTyped.within finite⟩
  | @buffer items payload itemsTyped =>
      refine ⟨payload.nesting, rfl, ?_⟩
      intro handle member
      obtain ⟨item, listed, inside⟩ := List.mem_flatMap.mp member
      exact (itemsTyped item listed).within finite handle inside

namespace Store

variable {store other : Store} {handles roots : List Address} {address lower : Address}
  {payload : Payload} {item : Item} {depth : Nat}

/-! ## Ways down -/

/-- What is inside a block nests less than the handles to it. -/
theorem WellTyped.within_of_find? {entry : Entry} (typed : store.WellTyped typing)
    (found : store.find? address = some entry) (within : typing.Within depth address) :
    ∃ inner, depth = inner + 1 ∧ ∀ handle ∈ entry.block.handles, typing.Within inner handle := by
  obtain ⟨kind, known, finite, nested⟩ := within
  obtain ⟨own, ownKnown, blockTyped⟩ := typed entry (mem_of_find? found)
  rw [address_of_find? found] at ownKnown
  cases known.symm.trans ownKnown
  obtain ⟨inner, nesting, below⟩ := blockTyped.within finite
  refine ⟨depth - 1, by omega, ?_⟩
  intro handle inside
  exact (below handle inside).mono (by omega)

private theorem WellTyped.within_of_reaches (typed : store.WellTyped typing)
    (within : ∀ handle ∈ handles, typing.Within depth handle)
    (reached : store.Reaches handles lower) : typing.Within depth lower := by
  induction reached with
  | handle member => exact within _ member
  | inside _ points ih =>
      obtain ⟨block, found, inside⟩ := points
      obtain ⟨entry, entryFound, rfl⟩ := Option.map_eq_some_iff.mp found
      obtain ⟨inner, rfl, below⟩ := typed.within_of_find? entryFound ih
      exact (below _ inside).mono (Nat.le_succ inner)

/-- No way leads from the content of a block of a finite kind back to the block. -/
theorem WellTyped.not_above (typed : store.WellTyped typing) (within : typing.Within depth address) :
    ¬ store.Above address address := by
  rintro ⟨block, found, reached⟩
  obtain ⟨kind, known, finite, _⟩ := within
  obtain ⟨entry, entryFound, rfl⟩ := Option.map_eq_some_iff.mp found
  obtain ⟨inner, nesting, below⟩ :=
    typed.within_of_find? entryFound ⟨kind, known, finite, Nat.le_refl _⟩
  obtain ⟨again, againKnown, _, nested⟩ := typed.within_of_reaches below reached
  cases known.symm.trans againKnown
  omega

/-! ## Trees -/

theorem WellTyped.content_typed {payload : Ty} (typed : store.WellTyped typing)
    (known : typing address = some (.shared payload)) :
    store.content address = .value .undefined ∨ (store.content address).HasType typing payload := by
  rw [content_eq]
  cases found : store.block? address with
  | none => exact .inl rfl
  | some block =>
      obtain ⟨kind, same, blockTyped⟩ := typed.of_block? found
      cases known.symm.trans same
      cases blockTyped with
      | cell contentTyped => exact .inr contentTyped

theorem WellTyped.items_typed {payload : Ty} (typed : store.WellTyped typing)
    (known : typing address = some (.sequence payload)) :
    ∀ item ∈ store.items address, item.HasType typing payload := by
  rw [items_eq]
  cases found : store.block? address with
  | none => simp
  | some block =>
      obtain ⟨kind, same, blockTyped⟩ := typed.of_block? found
      cases known.symm.trans same
      cases blockTyped with
      | buffer itemsTyped => exact itemsTyped

/-- The nesting of a finite kind is depth enough to follow a payload of it to its ends. -/
theorem WellTyped.exists_payloadTree? {kind : Kind} (typed : store.WellTyped typing)
    (payloadTyped : payload.HasKind typing kind) (finite : kind.isFinite = true)
    (enough : kind.nesting ≤ depth) : ∃ tree, store.payloadTree? depth payload = some tree := by
  induction depth generalizing payload kind with
  | zero =>
      cases payloadTyped with
      | boolean | number | text => exact ⟨_, rfl⟩
      | shared | sequence => cases enough
  | succ depth ih =>
      have inner : ∀ {item : Item} {type : Ty}, item.HasType typing type → type.isFinite = true →
          type.nesting ≤ depth → ∃ tree, item.tree? (store.payloadTree? depth) = some tree := by
        intro item type itemTyped typeFinite shallow
        refine Item.exists_tree? ?_
        intro own held
        obtain ⟨ownKind, member, ownTyped⟩ := itemTyped.exists_kind held
        obtain ⟨ownFinite, nested⟩ := Ty.isFinite_of_mem typeFinite member
        exact ih ownTyped ownFinite (Nat.le_trans nested shallow)
      cases payloadTyped with
      | boolean | number | text => exact ⟨_, rfl⟩
      | @shared cell payload known =>
          have shown : ∃ tree, (store.content cell).tree? (store.payloadTree? depth) = some tree := by
            rcases typed.content_typed known with missing | contentTyped
            · exact ⟨.undefined, by rw [missing]; rfl⟩
            · exact inner contentTyped finite (Nat.le_of_succ_le_succ enough)
          obtain ⟨tree, shown⟩ := shown
          exact ⟨.shared tree, Option.map_eq_some_iff.mpr ⟨tree, shown, rfl⟩⟩
      | @sequence buffer payload known =>
          obtain ⟨trees, shown⟩ := exists_mapM fun item member =>
            inner (typed.items_typed known item member) finite (Nat.le_of_succ_le_succ enough)
          exact ⟨.sequence trees, Option.map_eq_some_iff.mpr ⟨trees, shown, rfl⟩⟩

theorem WellTyped.exists_tree? {type : Ty} (typed : store.WellTyped typing)
    (itemTyped : item.HasType typing type) (finite : type.isFinite = true) :
    ∃ tree, item.tree? (store.payloadTree? type.nesting) = some tree := by
  refine Item.exists_tree? ?_
  intro own held
  obtain ⟨kind, member, ownTyped⟩ := itemTyped.exists_kind held
  obtain ⟨kindFinite, nested⟩ := Ty.isFinite_of_mem finite member
  exact typed.exists_payloadTree? ownTyped kindFinite nested

/-- A tree that is seen at some depth is the tree of the item. -/
theorem Grounded.tree?_eq {tree : Tree} (grounded : store.Grounded item.handles)
    (shown : item.tree? (store.payloadTree? depth) = some tree) : store.tree? item = some tree := by
  obtain ⟨own, ownShown⟩ := grounded.exists_tree?
  have deep : ∀ {less : Nat} {seen : Tree}, less ≤ depth + store.entries.length →
      item.tree? (store.payloadTree? less) = some seen →
      item.tree? (store.payloadTree? (depth + store.entries.length)) = some seen := by
    intro less seen enough
    refine Item.tree?_imp ?_
    intro payload tree _
    exact AgreesFrom.payloadTree? (fun _ _ => rfl) enough
  have same := (deep (Nat.le_add_right ..) shown).symm.trans (deep (Nat.le_add_left ..) ownShown)
  rw [ownShown, Option.some.inj same]

private theorem nesting_of_payloadTree? {tree : Tree}
    (shown : store.payloadTree? depth payload = some tree) :
    tree.nesting ≤ depth := by
  induction depth generalizing payload tree with
  | zero =>
      cases payload with
      | boolean | number | text =>
          cases shown
          exact Nat.le_refl 0
      | shared | sequence => cases shown
  | succ depth ih =>
      cases payload with
      | boolean | number | text =>
          cases shown
          exact Nat.zero_le _
      | shared cell =>
          obtain ⟨content, here, rfl⟩ := Option.map_eq_some_iff.mp shown
          exact Nat.succ_le_succ (Item.nesting_of_tree? (fun _ _ => ih) here)
      | sequence buffer =>
          obtain ⟨trees, here, rfl⟩ := Option.map_eq_some_iff.mp shown
          refine Nat.succ_le_succ (Tree.nestingAll_le ?_)
          intro tree member
          obtain ⟨item, _, itemShown⟩ := exists_mem_of_mapM here member
          exact Item.nesting_of_tree? (fun _ _ => ih) itemShown

/-! ## Nested drops -/

/-- The store after handles are dropped, one block inside the other, or nothing if a drop would be
nested in more than `depth` others. -/
def releaseWithin : (depth : Nat) → (dropped : List Address) → Store → Option Store
  | _, [], store => some store
  | depth, address :: rest, store =>
      match store.find? address with
      | none => releaseWithin depth rest store
      | some entry =>
          if entry.holders ≤ 1 then
            match depth with
            | 0 => none
            | inner + 1 =>
                match releaseWithin inner entry.block.handles (store.erase address) with
                | none => none
                | some left => releaseWithin (inner + 1) rest left
          else releaseWithin depth rest (store.recount address (· - 1))
termination_by depth dropped => (depth, dropped.length)

private theorem release_append (store : Store) (first second : List Address) :
    store.release (first ++ second) = (store.release first).release second := by
  fun_induction Store.release store first with
  | case1 => rfl
  | case2 store address rest missing ih => rw [List.cons_append, release_cons_of_none missing, ih]
  | case3 store address rest entry found last ih =>
      rw [List.cons_append, release_cons_of_last found last, ← List.append_assoc, ih]
  | case4 store address rest entry found several ih =>
      rw [List.cons_append, release_cons_of_several found several, ih]

private theorem WellTyped.of_contents (typed : store.WellTyped typing)
    (within : ∀ stored ∈ other.contents, stored ∈ store.contents) : other.WellTyped typing := by
  intro entry member
  obtain ⟨own, listed, same⟩ := List.mem_map.mp (within _ (List.mem_map_of_mem member))
  obtain ⟨kind, known, blockTyped⟩ := typed own listed
  obtain ⟨sameAddress, sameBlock⟩ := Prod.mk.inj same
  rw [sameAddress] at known
  rw [sameBlock] at blockTyped
  exact ⟨kind, known, blockTyped⟩

theorem WellTyped.erase (typed : store.WellTyped typing) (address : Address) :
    (store.erase address).WellTyped typing :=
  fun entry member => typed entry (List.mem_of_mem_eraseP member)

/-- Drops nest no deeper than the kinds of the dropped handles. -/
theorem WellTyped.releaseWithin_eq {dropped : List Address} (typed : store.WellTyped typing)
    (within : ∀ handle ∈ dropped, typing.Within depth handle) :
    releaseWithin depth dropped store = some (store.release dropped) := by
  fun_induction releaseWithin depth dropped store with
  | case1 depth store => rw [release]
  | case2 depth address rest store missing ih =>
      rw [release_cons_of_none missing]
      exact ih typed fun handle member => within handle (List.mem_cons_of_mem _ member)
  | case3 address rest store entry found last =>
      obtain ⟨inner, impossible, _⟩ := typed.within_of_find? found (within address List.mem_cons_self)
      cases impossible
  | case4 address rest store entry found last inner nested ih =>
      obtain ⟨_, same, below⟩ := typed.within_of_find? found (within address List.mem_cons_self)
      cases Nat.succ.inj same
      rw [ih (typed.erase address) below] at nested
      cases nested
  | case5 address rest store entry found last inner left nested ih more =>
      obtain ⟨_, same, below⟩ := typed.within_of_find? found (within address List.mem_cons_self)
      cases Nat.succ.inj same
      rw [ih (typed.erase address) below] at nested
      cases nested
      rw [release_cons_of_last found last, release_append]
      refine more ?_ fun handle member => within handle (List.mem_cons_of_mem _ member)
      exact (typed.erase address).of_contents fun stored member =>
        (contents_release_sublist _ _).subset member
  | case6 depth address rest store entry found several ih =>
      rw [release_cons_of_several found several]
      refine ih ?_ fun handle member => within handle (List.mem_cons_of_mem _ member)
      refine typed.of_contents ?_
      rw [contents_recount]
      exact fun stored member => member

/-- To show an item, and to drop it, no more than `depth` handles are followed one after the other. -/
structure NestsWithin (store : Store) (item : Item) (depth : Nat) : Prop where
  shown : ∃ tree, store.tree? item = some tree ∧
    item.tree? (store.payloadTree? depth) = some tree ∧ tree.nesting ≤ depth ∧
    store.rendered? item = some (String.ofList tree.render) ∧
    store.debugged? item = some (String.ofList tree.debug)
  dropped : releaseWithin depth item.handles store = some (store.release item.handles)

theorem Sound.nestsWithin {type : Ty} (sound : store.Sound typing roots) (acyclic : store.Acyclic)
    (itemTyped : item.HasType typing type) (finite : type.isFinite = true)
    (live : ∀ handle ∈ item.handles, handle ∈ store.addresses) :
    store.NestsWithin item type.nesting where
  shown := by
    have grounded : store.Grounded item.handles :=
      ⟨fun address _ => acyclic address, fun _ => sound.counted.mem_addresses_of_reaches live⟩
    obtain ⟨tree, shown⟩ := sound.typed.exists_tree? itemTyped finite
    have whole := grounded.tree?_eq shown
    refine ⟨tree, whole, shown, ?_, ?_, ?_⟩
    · exact Item.nesting_of_tree? (fun _ _ => nesting_of_payloadTree?) shown
    · rw [rendered?_eq, whole, Option.map_some]
    · rw [debugged?_eq, whole, Option.map_some]
  dropped := sound.typed.releaseWithin_eq (itemTyped.within finite)

end Store

end LooseValue
