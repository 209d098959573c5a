import LooseValue.Proofs.Store.Reachability
import LooseValue.Tree

/-!
# Trees of items

The tree of an item is determined by the blocks that can be reached from it: stores that agree on
these show the same tree, at every depth that is enough. If no cycle can be reached, the number of
live blocks is enough, since a path from handle to handle meets no block twice.
-/

set_option autoImplicit false

namespace LooseValue

theorem mapM_imp {α β : Type} {f g : α → Option β} {items : List α} {results : List β}
    (implies : ∀ item ∈ items, ∀ result, f item = some result → g item = some result)
    (mapped : items.mapM f = some results) : items.mapM g = some results := by
  induction items generalizing results with
  | nil => exact mapped
  | cons item items ih =>
      simp only [List.mapM_cons, Option.bind_eq_bind, Option.bind_eq_some_iff, Option.pure_def,
        Option.some.injEq] at mapped ⊢
      obtain ⟨first, here, rest, later, joined⟩ := mapped
      refine ⟨first, implies item List.mem_cons_self first here, rest, ?_, joined⟩
      exact ih (fun other member => implies other (List.mem_cons_of_mem _ member)) later

theorem exists_mapM {α β : Type} {f : α → Option β} {items : List α}
    (defined : ∀ item ∈ items, ∃ result, f item = some result) :
    ∃ results, items.mapM f = some results := by
  induction items with
  | nil => exact ⟨[], rfl⟩
  | cons item items ih =>
      obtain ⟨first, here⟩ := defined item List.mem_cons_self
      obtain ⟨rest, later⟩ := ih fun other member => defined other (List.mem_cons_of_mem _ member)
      exact ⟨first :: rest, by simp [List.mapM_cons, here, later]⟩

namespace Item

variable {f g : Payload → Option Tree} {item : Item}

theorem handles_of_payload? {payload : Payload} (held : item.payload? = some payload) :
    payload.handles = item.handles := by
  rcases item with own | (_ | ⟨position, own⟩)
  · cases held
    rfl
  · cases held
  · cases held
    rfl

theorem tree?_imp {tree : Tree} (implies : ∀ payload tree, item.payload? = some payload →
    f payload = some tree → g payload = some tree) (shown : item.tree? f = some tree) :
    item.tree? g = some tree := by
  rcases item with payload | (_ | ⟨position, payload⟩)
  · exact implies payload tree rfl shown
  · exact shown
  · obtain ⟨inner, here, rfl⟩ := Option.map_eq_some_iff.mp shown
    exact Option.map_eq_some_iff.mpr ⟨inner, implies payload inner rfl here, rfl⟩

theorem exists_tree? (defined : ∀ payload, item.payload? = some payload →
    ∃ tree, f payload = some tree) : ∃ tree, item.tree? f = some tree := by
  rcases item with payload | (_ | ⟨position, payload⟩)
  · exact defined payload rfl
  · exact ⟨.undefined, rfl⟩
  · obtain ⟨inner, here⟩ := defined payload rfl
    exact ⟨.active position inner, Option.map_eq_some_iff.mpr ⟨inner, here, rfl⟩⟩

end Item

namespace Store

variable {store other : Store} {handles : List Address} {address : Address} {payload : Payload}
  {item : Item} {depth : Nat}

/-- No cycle can be reached from the handles. -/
def AcyclicFrom (store : Store) (handles : List Address) : Prop :=
  ∀ address, store.Reaches handles address → ¬ store.Above address address

/-- The second store has the blocks of the first wherever the handles lead to in the first. -/
def AgreesFrom (store : Store) (handles : List Address) (other : Store) : Prop :=
  ∀ address, store.Reaches handles address → other.block? address = store.block? address

/-! ## Stores that agree -/

theorem AgreesFrom.mono {fewer : List Address} (agrees : store.AgreesFrom handles other)
    (included : ∀ handle ∈ fewer, store.Reaches handles handle) : store.AgreesFrom fewer other :=
  fun address reached => agrees address (reached.trans included)

theorem AgreesFrom.reaches (agrees : store.AgreesFrom handles other)
    (reached : other.Reaches handles address) : store.Reaches handles address := by
  induction reached with
  | handle member => exact .handle member
  | inside _ points ih =>
      obtain ⟨block, found, inside⟩ := points
      rw [agrees _ ih] at found
      exact .inside ih ⟨block, found, inside⟩

/-- A counted store that is part of another one agrees with it wherever its roots lead. -/
theorem Counted.agreesFrom {roots : List Address} (counted : other.Counted roots)
    (part : ∀ address block, other.block? address = some block → store.block? address = some block) :
    store.AgreesFrom roots other := by
  intro address reached
  have live := counted.mem_addresses_of_reaches (fun _ => counted.mem_addresses)
    (counted.reaches_of_reaches part reached)
  obtain ⟨block, found⟩ := exists_block?_of_mem live
  rw [found, part address block found]

theorem AgreesFrom.acyclicFrom (agrees : store.AgreesFrom handles other)
    (acyclic : store.AcyclicFrom handles) : other.AcyclicFrom handles := by
  rintro address reached ⟨block, found, returns⟩
  have before := agrees.reaches reached
  rw [agrees address before] at found
  have below : store.AgreesFrom block.handles other :=
    agrees.mono fun _ inside => .inside before ⟨block, found, inside⟩
  exact acyclic address before ⟨block, found, below.reaches returns⟩

/-- A tree that one store shows is shown by every store that agrees with it, at any greater depth. -/
theorem AgreesFrom.payloadTree? {deeper : Nat} {tree : Tree}
    (agrees : store.AgreesFrom payload.handles other) (enough : depth ≤ deeper)
    (shown : store.payloadTree? depth payload = some tree) :
    other.payloadTree? deeper payload = some tree := by
  induction depth generalizing deeper payload tree with
  | zero => cases payload <;> simp_all [Store.payloadTree?]
  | succ depth ih =>
      obtain _ | deeper := deeper
      · exact absurd enough (Nat.not_succ_le_zero depth)
      have inner : ∀ address ∈ payload.handles, ∀ item : Item,
          (∀ handle ∈ item.handles, store.Points address handle) →
          ∀ tree, item.tree? (store.payloadTree? depth) = some tree →
            item.tree? (other.payloadTree? deeper) = some tree := by
        intro address member item points tree
        refine Item.tree?_imp ?_
        intro payload tree held
        rw [← Item.handles_of_payload? held] at points
        refine ih (agrees.mono ?_) (Nat.le_of_succ_le_succ enough)
        exact fun handle inside => .inside (.handle member) (points handle inside)
      cases payload with
      | boolean | number | text => simp_all [Store.payloadTree?]
      | shared cell =>
          obtain ⟨content, contentShown, rfl⟩ := Option.map_eq_some_iff.mp shown
          have same : other.content cell = store.content cell := by
            rw [content_eq, content_eq, agrees cell (.handle List.mem_cons_self)]
          refine Option.map_eq_some_iff.mpr ⟨content, ?_, rfl⟩
          rw [same]
          exact inner cell List.mem_cons_self _ (fun _ => points_of_mem_content) _ contentShown
      | sequence buffer =>
          obtain ⟨trees, itemsShown, rfl⟩ := Option.map_eq_some_iff.mp shown
          have same : other.items buffer = store.items buffer := by
            rw [items_eq, items_eq, agrees buffer (.handle List.mem_cons_self)]
          refine Option.map_eq_some_iff.mpr ⟨trees, ?_, rfl⟩
          rw [same]
          refine mapM_imp ?_ itemsShown
          intro item member
          exact inner buffer List.mem_cons_self item fun _ => points_of_mem_items member

/-! ## Depth -/

/-- Blocks on the way to a payload are distinct if no cycle can be reached, so that there are fewer
of them than live blocks. -/
private theorem seen_lt {seen : List Address} (distinct : seen.Nodup)
    (stored : ∀ holder ∈ seen, holder ∈ store.addresses)
    (above : ∀ holder ∈ seen, store.Above holder address) (live : address ∈ store.addresses)
    (acyclic : ¬ store.Above address address) :
    (address :: seen).Nodup ∧ seen.length < store.entries.length := by
  have unseen : address ∉ seen := fun member => acyclic (above address member)
  have longer : (address :: seen).Nodup := List.nodup_cons.mpr ⟨unseen, distinct⟩
  have within : (address :: seen) ⊆ store.addresses := by
    intro holder member
    rcases List.mem_cons.mp member with rfl | member
    · exact live
    · exact stored holder member
  refine ⟨longer, ?_⟩
  have bound := (List.subperm_of_subset longer within).length_le
  rwa [List.length_cons, addresses, List.length_map] at bound

theorem exists_payloadTree? {seen : List Address}
    (live : ∀ address, store.Reaches payload.handles address → address ∈ store.addresses)
    (acyclic : store.AcyclicFrom payload.handles) (distinct : seen.Nodup)
    (stored : ∀ holder ∈ seen, holder ∈ store.addresses)
    (above : ∀ holder ∈ seen, ∀ handle ∈ payload.handles, store.Above holder handle)
    (enough : store.entries.length ≤ seen.length + depth) :
    ∃ tree, store.payloadTree? depth payload = some tree := by
  -- The blocks passed so far are carried along: they and the remaining depth cover all live ones.
  induction depth generalizing payload seen with
  | zero =>
      have full : payload.handles = [] := by
        apply List.eq_nil_iff_forall_not_mem.mpr
        intro handle member
        have room := seen_lt distinct stored (fun holder passed => above holder passed handle member)
          (live handle (.handle member)) (acyclic handle (.handle member))
        omega
      cases payload with
      | boolean | number | text => exact ⟨_, rfl⟩
      | shared | sequence => cases full
  | succ depth ih =>
      have inner : ∀ address ∈ payload.handles, ∀ item : Item,
          (∀ handle ∈ item.handles, store.Points address handle) →
          ∃ tree, item.tree? (store.payloadTree? depth) = some tree := by
        intro address member item points
        have here : store.Reaches payload.handles address := .handle member
        obtain ⟨longer, room⟩ := seen_lt distinct stored
          (fun holder known => above holder known address member) (live address here)
          (acyclic address here)
        refine Item.exists_tree? ?_
        intro inner held
        rw [← Item.handles_of_payload? held] at points
        have further : ∀ handle ∈ inner.handles, store.Reaches payload.handles handle :=
          fun handle inside => .inside here (points handle inside)
        refine ih (fun lower reached => live lower (reached.trans further))
          (fun lower reached => acyclic lower (reached.trans further)) longer ?_ ?_ ?_
        · intro holder known
          rcases List.mem_cons.mp known with rfl | known
          · exact live holder here
          · exact stored holder known
        · intro holder known handle inside
          have last := Above.of_points (points handle inside)
          rcases List.mem_cons.mp known with rfl | known
          · exact last
          · exact (above holder known address member).trans last
        · rw [List.length_cons]
          omega
      cases payload with
      | boolean | number | text => exact ⟨_, rfl⟩
      | shared cell =>
          obtain ⟨tree, shown⟩ := inner cell List.mem_cons_self (store.content cell)
            fun _ => points_of_mem_content
          exact ⟨.shared tree, Option.map_eq_some_iff.mpr ⟨tree, shown, rfl⟩⟩
      | sequence buffer =>
          obtain ⟨trees, shown⟩ := exists_mapM fun item member =>
            inner buffer List.mem_cons_self item fun _ => points_of_mem_items member
          exact ⟨.sequence trees, Option.map_eq_some_iff.mpr ⟨trees, shown, rfl⟩⟩

private theorem payloadTree?_retain (store : Store) (copied : List Address) (depth : Nat) :
    (store.retain copied).payloadTree? depth = store.payloadTree? depth := by
  induction depth with
  | zero =>
      funext payload
      cases payload <;> rfl
  | succ depth ih =>
      funext payload
      cases payload with
      | boolean | number | text => rfl
      | shared cell => rw [Store.payloadTree?, ih, content_eq, block?_retain, ← content_eq]; rfl
      | sequence buffer => rw [Store.payloadTree?, ih, items_eq, block?_retain, ← items_eq]; rfl

/-- A copy in hand shows in no tree. -/
theorem tree?_retain (store : Store) (copied : List Address) (item : Item) :
    (store.retain copied).tree? item = store.tree? item := by
  have length : (store.retain copied).entries.length = store.entries.length := by
    have same := congrArg List.length (store.addresses_retain copied)
    rwa [addresses, addresses, List.length_map, List.length_map] at same
  rw [Store.tree?, length, payloadTree?_retain, ← Store.tree?]

/-- An item from which no cycle can be reached has a tree, the same in every store that agrees. -/
theorem AgreesFrom.tree? (agrees : store.AgreesFrom item.handles other)
    (acyclic : store.AcyclicFrom item.handles)
    (live : ∀ address, store.Reaches item.handles address → address ∈ store.addresses)
    (alive : ∀ address, store.Reaches item.handles address → address ∈ other.addresses) :
    ∃ tree, store.tree? item = some tree ∧ other.tree? item = some tree := by
  have defined : ∀ {store : Store}, store.AcyclicFrom item.handles →
      (∀ address, store.Reaches item.handles address → address ∈ store.addresses) →
      ∃ tree, store.tree? item = some tree := by
    intro store acyclic live
    refine Item.exists_tree? ?_
    intro payload held
    rw [← Item.handles_of_payload? held] at acyclic live
    exact exists_payloadTree? live acyclic List.nodup_nil
      (fun _ member => (List.not_mem_nil member).elim)
      (fun _ member => (List.not_mem_nil member).elim) (by simp)
  obtain ⟨tree, shown⟩ := defined acyclic live
  obtain ⟨otherTree, otherShown⟩ := defined (agrees.acyclicFrom acyclic)
    fun address reached => alive address (agrees.reaches reached)
  -- The two stores look at different depths; at the sum of both they show the same.
  have deep : item.tree? (other.payloadTree? (store.entries.length + other.entries.length)) =
      some tree := by
    refine Item.tree?_imp ?_ shown
    intro payload tree held
    refine AgreesFrom.payloadTree? ?_ (Nat.le_add_right ..)
    rwa [Item.handles_of_payload? held]
  have otherDeep : item.tree? (other.payloadTree? (store.entries.length + other.entries.length)) =
      some otherTree := by
    refine Item.tree?_imp ?_ otherShown
    intro payload tree held
    exact AgreesFrom.payloadTree? (fun _ _ => rfl) (Nat.le_add_left ..)
  rw [deep] at otherDeep
  exact ⟨tree, shown, otherShown.trans otherDeep.symm⟩

end Store

end LooseValue
