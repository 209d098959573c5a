import LooseValue.Proofs.Store.Acyclicity
import LooseValue.Proofs.Store.Texts

/-!
# Storage that is owned

Blocks that are made for some handles and for nothing else: they are new, each of them has one
holder, and they can be reached from those handles only. Blocks that are made later for other
handles are again new, so that the storage of the one is apart from the storage of the other.
-/

set_option autoImplicit false

namespace LooseValue

namespace Store

variable {before middle after store : Store} {handles first second : List Address}
  {address lower : Address} {block : Block} {item : Item}

/-! ## Stores that keep what can be reached -/

theorem Keeps.agreesFrom (keeps : before.Keeps after) (grounded : before.Grounded handles) :
    before.AgreesFrom handles after := by
  intro address reached
  obtain ⟨block, found⟩ := exists_block?_of_mem (grounded.live address reached)
  rw [found, keeps _ _ found]

theorem Keeps.mem_addresses (keeps : before.Keeps after) (live : address ∈ before.addresses) :
    address ∈ after.addresses := by
  obtain ⟨block, found⟩ := exists_block?_of_mem live
  exact mem_addresses_of_block? (keeps _ _ found)

private theorem Grounded.keep (grounded : before.Grounded handles) (keeps : before.Keeps after) :
    after.Grounded handles where
  acyclic := (keeps.agreesFrom grounded).acyclicFrom grounded.acyclic
  live := fun address reached =>
    keeps.mem_addresses (grounded.live address ((keeps.agreesFrom grounded).reaches reached))

theorem Grounded.tree?_keep (grounded : before.Grounded item.handles) (keeps : before.Keeps after) :
    after.tree? item = before.tree? item := by
  have agrees := keeps.agreesFrom grounded
  obtain ⟨tree, shown, kept⟩ := agrees.tree? grounded.acyclic grounded.live
    fun address reached => keeps.mem_addresses (grounded.live address reached)
  rw [shown, kept]

theorem AgreesFrom.reaches_iff {other : Store} (agrees : store.AgreesFrom handles other) :
    other.Reaches handles address ↔ store.Reaches handles address := by
  refine ⟨agrees.reaches, ?_⟩
  intro reached
  induction reached with
  | handle member => exact .handle member
  | inside reached points ih =>
      obtain ⟨block, found, inside⟩ := points
      exact .inside ih ⟨block, (agrees _ reached).trans found, inside⟩

theorem AgreesFrom.trans (one : before.AgreesFrom handles middle)
    (two : middle.AgreesFrom handles after) : before.AgreesFrom handles after := by
  intro address reached
  rw [two address (one.reaches_iff.mpr reached), one address reached]

private theorem reaches_append (reached : store.Reaches (first ++ second) address) :
    store.Reaches first address ∨ store.Reaches second address := by
  induction reached with
  | handle member => exact (List.mem_append.mp member).imp .handle .handle
  | inside _ points ih => exact ih.imp (.inside · points) (.inside · points)

private theorem Reaches.eq_or_above (reached : store.Reaches [address] lower) :
    lower = address ∨ store.Above address lower := by
  induction reached with
  | handle member => exact .inl (List.mem_singleton.mp member)
  | inside _ points ih =>
      rcases ih with rfl | above
      · exact .inr (.of_points points)
      · exact .inr (above.trans (.of_points points))

theorem grounded_nil (store : Store) : store.Grounded [] where
  acyclic := fun _ reached => absurd reached not_reaches_nil
  live := fun _ reached => absurd reached not_reaches_nil

theorem Grounded.append (one : store.Grounded first) (two : store.Grounded second) :
    store.Grounded (first ++ second) where
  acyclic := fun address reached =>
    (reaches_append reached).elim (one.acyclic address) (two.acyclic address)
  live := fun address reached => (reaches_append reached).elim (one.live address) (two.live address)

theorem Grounded.mono (grounded : store.Grounded first)
    (included : ∀ handle ∈ second, store.Reaches first handle) : store.Grounded second where
  acyclic := fun address reached => grounded.acyclic address (reached.trans included)
  live := fun address reached => grounded.live address (reached.trans included)

private theorem reaches_of_allocate_self {allocator : Allocator}
    (reached : (store.allocate allocator block).2.Reaches [(store.allocate allocator block).1] lower) :
    lower = (store.allocate allocator block).1 ∨
      (store.allocate allocator block).2.Reaches block.handles lower := by
  refine reached.eq_or_above.imp_right ?_
  rintro ⟨own, found, further⟩
  rw [block?_allocate_self] at found
  cases found
  exact further

theorem Grounded.allocate (block : Block) (grounded : store.Grounded block.handles)
    (allocator : Allocator) :
    (store.allocate allocator block).2.Grounded [(store.allocate allocator block).1] := by
  have keeps := store.keeps_allocate allocator block
  have inner := grounded.keep keeps
  constructor
  · intro address reached
    rcases reaches_of_allocate_self reached with rfl | further
    · rintro ⟨own, found, returns⟩
      rw [block?_allocate_self] at found
      cases found
      have old := (keeps.agreesFrom grounded).reaches returns
      exact allocator.fresh store.addresses (grounded.live _ old)
    · exact inner.acyclic address further
  · intro address reached
    rcases reaches_of_allocate_self reached with rfl | further
    · exact mem_addresses_of_block? (store.block?_allocate_self allocator block)
    · exact inner.live address further

theorem Grounded.tree?_allocate_cell {allocator : Allocator} {tree : Tree}
    (grounded : store.Grounded item.handles) (shown : store.tree? item = some tree) :
    (store.allocate allocator (.cell item)).2.tree?
      (.plain (.shared (store.allocate allocator (.cell item)).1)) = some (.shared tree) := by
  obtain ⟨inner, innerShown, outer⟩ :=
    (Grounded.allocate (.cell item) grounded allocator).tree?_shared
  rw [content_eq, block?_allocate_self] at innerShown
  have kept := grounded.tree?_keep (store.keeps_allocate allocator (.cell item))
  cases innerShown.symm.trans (kept.trans shown)
  exact outer

theorem Grounded.tree?_allocate_buffer {allocator : Allocator} {items : List Item}
    {trees : List Tree} (grounded : store.Grounded (Block.buffer items).handles)
    (shown : items.mapM store.tree? = some trees) :
    (store.allocate allocator (.buffer items)).2.tree?
      (.plain (.sequence (store.allocate allocator (.buffer items)).1)) =
        some (.sequence trees) := by
  obtain ⟨inner, innerShown, outer⟩ :=
    (Grounded.allocate (.buffer items) grounded allocator).tree?_sequence
  rw [items_eq, block?_allocate_self] at innerShown
  have kept : items.mapM (store.allocate allocator (.buffer items)).2.tree? = some trees := by
    refine mapM_imp ?_ shown
    intro item member tree itemShown
    have own : store.Grounded item.handles :=
      grounded.mono fun handle inside => .handle (List.mem_flatMap.mpr ⟨item, member, inside⟩)
    rwa [own.tree?_keep (store.keeps_allocate allocator (.buffer items))]
  cases innerShown.symm.trans kept
  exact outer

/-! ## Storage apart -/

/-- Nothing can be reached both from the first handles and from the second. -/
def Apart (store : Store) (first second : List Address) : Prop :=
  ∀ address, store.Reaches first address → ¬ store.Reaches second address

theorem Apart.symm (apart : store.Apart first second) : store.Apart second first :=
  fun address reached other => apart address other reached

theorem Apart.mono {fewer : List Address} (apart : store.Apart first second)
    (included : ∀ handle ∈ fewer, store.Reaches second handle) : store.Apart first fewer :=
  fun address reached other => apart address reached (other.trans included)

theorem Apart.agree (apart : before.Apart first second) (one : before.AgreesFrom first after)
    (two : before.AgreesFrom second after) : after.Apart first second :=
  fun address reached other => apart address (one.reaches reached) (two.reaches other)

/-- After a write a block leads where it led before, or through a handle that the write brought in. -/
theorem Frame.reaches_or_brought {roots : List Address} (frame : before.Frame (· = address) after)
    (counted : before.Counted roots)
    (written : ∀ stored, after.block? address = some stored → stored = block)
    (live : ∀ handle ∈ handles, handle ∈ before.addresses) (reached : after.Reaches handles lower) :
    before.Reaches handles lower ∧ lower ∈ before.addresses ∨
      ∃ handle ∈ block.handles, ¬ before.Points address handle ∧ after.Reaches [handle] lower := by
  induction reached with
  | handle member => exact .inl ⟨.handle member, live _ member⟩
  | @inside holder lower _ points ih =>
      obtain ⟨stored, found, inside⟩ := points
      rcases ih with ⟨old, known⟩ | ⟨handle, brought, new, further⟩
      · have further : before.Points holder lower →
            before.Reaches handles lower ∧ lower ∈ before.addresses :=
          fun points => ⟨.inside old points, counted.mem_addresses_of_points points⟩
        by_cases here : holder = address
        · subst here
          cases written stored found
          by_cases points : before.Points holder lower
          · exact .inl (further points)
          · exact .inr ⟨lower, inside, points, .handle List.mem_cons_self⟩
        · obtain ⟨own, ownFound⟩ := exists_block?_of_mem known
          cases frame holder here own stored ownFound found
          exact .inl (further ⟨stored, ownFound, inside⟩)
      · exact .inr ⟨handle, brought, new, .inside further ⟨stored, found, inside⟩⟩

/-! ## Owned storage -/

/-- All that was made between the two stores was made for the handles alone. -/
structure Owned (before after : Store) (handles : List Address) : Prop where
  keeps : before.Keeps after
  grounded : after.Grounded handles
  fresh : ∀ address, after.Reaches handles address → address ∉ before.addresses
  made : ∃ entries, after.entries = entries ++ before.entries ∧
    ∀ entry ∈ entries, entry.holders = 1 ∧ after.Reaches handles entry.address

theorem owned_nil (store : Store) : store.Owned store [] where
  keeps := .refl store
  grounded := store.grounded_nil
  fresh := fun _ reached => absurd reached not_reaches_nil
  made := ⟨[], rfl, fun _ member => (List.not_mem_nil member).elim⟩

namespace Owned

theorem reaches_iff (one : before.Owned middle first) (keeps : middle.Keeps after) :
    after.Reaches first address ↔ middle.Reaches first address :=
  (keeps.agreesFrom one.grounded).reaches_iff

/-- What is made for one and what is made after it for another are apart. -/
theorem apart (one : before.Owned middle first) (two : middle.Owned after second) :
    after.Apart first second := by
  intro address reached other
  exact two.fresh address other (one.grounded.live address ((one.reaches_iff two.keeps).mp reached))

theorem append (one : before.Owned middle first) (two : middle.Owned after second) :
    before.Owned after (first ++ second) where
  keeps := one.keeps.trans two.keeps
  grounded := (one.grounded.keep two.keeps).append two.grounded
  fresh := by
    intro address reached
    rcases reaches_append reached with early | late
    · exact one.fresh address ((one.reaches_iff two.keeps).mp early)
    · exact fun live => two.fresh address late (one.keeps.mem_addresses live)
  made := by
    obtain ⟨early, earlyEntries, earlyMade⟩ := one.made
    obtain ⟨late, lateEntries, lateMade⟩ := two.made
    refine ⟨late ++ early, by rw [lateEntries, earlyEntries, List.append_assoc], ?_⟩
    intro entry member
    rcases List.mem_append.mp member with inLate | inEarly
    · obtain ⟨alone, reached⟩ := lateMade entry inLate
      exact ⟨alone, reached.trans fun _ inside => .handle (List.mem_append_right _ inside)⟩
    · obtain ⟨alone, reached⟩ := earlyMade entry inEarly
      refine ⟨alone, ((one.reaches_iff two.keeps).mpr reached).trans ?_⟩
      exact fun _ inside => .handle (List.mem_append_left _ inside)

/-- A block that is made of owned handles owns what they own. -/
theorem allocate (block : Block) (owned : before.Owned after block.handles) (allocator : Allocator) :
    before.Owned (after.allocate allocator block).2 [(after.allocate allocator block).1] where
  keeps := owned.keeps.trans (after.keeps_allocate allocator block)
  grounded := owned.grounded.allocate block allocator
  fresh := by
    intro address reached
    rcases reaches_of_allocate_self reached with rfl | further
    · exact fun live => allocator.fresh after.addresses (owned.keeps.mem_addresses live)
    · exact owned.fresh address ((owned.reaches_iff (after.keeps_allocate allocator block)).mp further)
  made := by
    obtain ⟨entries, same, made⟩ := owned.made
    refine ⟨⟨(after.allocate allocator block).1, 1, block⟩ :: entries, ?_, ?_⟩
    · rw [List.cons_append, ← same]
      rfl
    · intro entry member
      rcases List.mem_cons.mp member with rfl | inside
      · exact ⟨rfl, .handle List.mem_cons_self⟩
      · obtain ⟨alone, reached⟩ := made entry inside
        have kept := (owned.reaches_iff (after.keeps_allocate allocator block)).mpr reached
        refine ⟨alone, kept.trans ?_⟩
        intro handle held
        exact .inside (.handle List.mem_cons_self)
          ⟨block, after.block?_allocate_self allocator block, held⟩

theorem holders (owned : before.Owned after handles) (reached : after.Reaches handles address) :
    after.holders address = 1 := by
  obtain ⟨entry, found⟩ := mem_addresses_iff.mp (owned.grounded.live address reached)
  obtain ⟨entries, same, made⟩ := owned.made
  have member := mem_of_find? found
  rw [same] at member
  have alone : entry.holders = 1 := by
    rcases List.mem_append.mp member with new | old
    · exact (made entry new).1
    · have known : entry.address ∈ before.addresses := List.mem_map_of_mem old
      rw [address_of_find? found] at known
      exact absurd known (owned.fresh address reached)
  rw [Store.holders, found]
  exact alone

private theorem reaches_of_new (owned : before.Owned after handles)
    (live : address ∈ after.addresses)
    (new : address ∉ before.addresses) : after.Reaches handles address := by
  obtain ⟨entry, member, rfl⟩ := List.mem_map.mp live
  obtain ⟨entries, same, made⟩ := owned.made
  rw [same] at member
  rcases List.mem_append.mp member with inside | old
  · exact (made entry inside).2
  · exact absurd (List.mem_map_of_mem old) new

/-- Storage with a root of its own is not affected by what is dropped elsewhere. -/
theorem release {roots dropped : List Address} (owned : before.Owned after handles)
    (counted : after.Counted (dropped ++ roots)) (held : ∀ handle ∈ handles, handle ∈ roots) :
    after.AgreesFrom handles (after.release dropped) ∧
    (∀ address, (after.release dropped).Reaches handles address ↔
      address ∈ (after.release dropped).addresses ∧ address ∉ before.addresses) ∧
    ∀ address, (after.release dropped).Reaches handles address →
      (after.release dropped).holders address = 1 := by
  have released := counted.release
  have frame := (Keeps.refl after).frame_release counted.distinct dropped
  obtain ⟨agrees, alive⟩ := frame.agreesFrom counted released
    (fun handle member => List.mem_append_right _ (held handle member)) held
    fun _ _ changed => changed
  refine ⟨agrees, ?_, ?_⟩
  · intro address
    constructor
    · intro reached
      have early := agrees.reaches reached
      exact ⟨alive address early, owned.fresh address early⟩
    · rintro ⟨live, new⟩
      have early := (addresses_sublist (contents_release_sublist after dropped)).subset live
      exact agrees.reaches_iff.mpr (owned.reaches_of_new early new)
  · intro address reached
    have early := agrees.reaches reached
    have fewer := counted.givesUp.holders address
    rw [owned.holders early] at fewer
    obtain ⟨entry, found⟩ := mem_addresses_iff.mp (alive address early)
    have some : 0 < (after.release dropped).holders address := by
      rw [Store.holders, found]
      exact released.holders_pos (mem_of_find? found)
    omega

end Owned

end Store

end LooseValue
