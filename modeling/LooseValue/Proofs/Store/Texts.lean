import LooseValue.Machine.Answer
import LooseValue.Proofs.Store.Trees

/-!
# Texts of stored items

The texts of an item are those of its tree. From handles that lead into no cycle every way ends, so
that an item with such handles has a tree, and with it a rendered text and a debug text; and the tree
of a reference or a sequence is put together from the trees of what is behind it.
-/

set_option autoImplicit false

namespace LooseValue

namespace Store

variable {store : Store} {handles : List Address} {item : Item}

/-- The rendered text that an item shows: that of a value, or that of a plain payload. -/
def rendered? (store : Store) : Item → Option String
  | .plain payload => (Profile.ofPayload store payload).texts.map PayloadTexts.rendered
  | .value value => (Summary.ofValue store value).texts.map ValueTexts.rendered

/-- The debug text that an item shows. -/
def debugged? (store : Store) : Item → Option String
  | .plain payload => (Profile.ofPayload store payload).texts.map PayloadTexts.debug
  | .value value => (Summary.ofValue store value).texts.map ValueTexts.debug

theorem rendered?_eq (store : Store) (item : Item) :
    store.rendered? item = (store.tree? item).map fun tree => String.ofList tree.render := by
  cases item with
  | plain payload => simp [rendered?, Profile.ofPayload, Function.comp_def, PayloadTexts.ofTree]
  | value value => simp [rendered?, Summary.ofValue, Function.comp_def, ValueTexts.ofTree]

theorem debugged?_eq (store : Store) (item : Item) :
    store.debugged? item = (store.tree? item).map fun tree => String.ofList tree.debug := by
  cases item with
  | plain payload => simp [debugged?, Profile.ofPayload, Function.comp_def, PayloadTexts.ofTree]
  | value value => simp [debugged?, Summary.ofValue, Function.comp_def, ValueTexts.ofTree]

/-! ## Trees from their parts -/

/-- Whatever can be reached from the handles is live, and no cycle is among it. -/
structure Grounded (store : Store) (handles : List Address) : Prop where
  acyclic : store.AcyclicFrom handles
  live : ∀ address, store.Reaches handles address → address ∈ store.addresses

theorem grounded_of_descending
    (descending : ∀ entry ∈ store.entries, ∀ handle ∈ entry.block.handles, handle < entry.address)
    (closed : ∀ entry ∈ store.entries, ∀ handle ∈ entry.block.handles, handle ∈ store.addresses)
    (rooted : ∀ handle ∈ handles, handle ∈ store.addresses) : store.Grounded handles where
  acyclic := fun address _ => acyclic_of_descending descending address
  live := fun _ => Reaches.passes rooted fun entry member _ => closed entry member

theorem Grounded.exists_tree? (grounded : store.Grounded item.handles) :
    ∃ tree, store.tree? item = some tree := by
  have agrees : store.AgreesFrom item.handles store := fun _ _ => rfl
  obtain ⟨tree, shown, _⟩ := agrees.tree? grounded.acyclic grounded.live grounded.live
  exact ⟨tree, shown⟩

/-- One level of depth more shows no other tree. -/
theorem tree?_succ {depth : Nat} {tree : Tree}
    (shown : item.tree? (store.payloadTree? depth) = some tree) :
    item.tree? (store.payloadTree? (depth + 1)) = some tree := by
  refine Item.tree?_imp ?_ shown
  intro payload inner _
  exact AgreesFrom.payloadTree? (fun _ _ => rfl) (Nat.le_succ depth)

/-- The live blocks of which the payload's own is one allow for a depth of one at least. -/
theorem Grounded.exists_payloadTree? {payload : Payload} (grounded : store.Grounded payload.handles)
    (compound : payload.handles ≠ []) : ∃ depth tree, store.entries.length = depth + 1 ∧
      store.payloadTree? (depth + 1) payload = some tree := by
  have own : store.Grounded (Item.plain payload).handles := grounded
  obtain ⟨tree, shown⟩ := own.exists_tree?
  obtain ⟨handle, member⟩ := List.exists_mem_of_ne_nil _ compound
  have live := grounded.live handle (.handle member)
  have filled : store.entries.length ≠ 0 := by
    rw [ne_eq, List.length_eq_zero_iff]
    intro empty
    rw [addresses, empty] at live
    exact List.not_mem_nil live
  obtain ⟨depth, length⟩ := Nat.exists_eq_succ_of_ne_zero filled
  refine ⟨depth, tree, length, ?_⟩
  rwa [Store.tree?, length] at shown

theorem Grounded.tree?_shared {cell : Address} (grounded : store.Grounded [cell]) :
    ∃ content, store.tree? (store.content cell) = some content ∧
      store.tree? (.plain (.shared cell)) = some (.shared content) := by
  have own : store.Grounded (Payload.shared cell).handles := grounded
  obtain ⟨depth, tree, length, shown⟩ := own.exists_payloadTree? (List.cons_ne_nil _ _)
  obtain ⟨content, contentShown, rfl⟩ := Option.map_eq_some_iff.mp shown
  refine ⟨content, ?_, ?_⟩
  · rw [Store.tree?, length]
    exact tree?_succ contentShown
  · rw [Store.tree?, length]
    exact shown

theorem Grounded.tree?_sequence {buffer : Address} (grounded : store.Grounded [buffer]) :
    ∃ trees, (store.items buffer).mapM store.tree? = some trees ∧
      store.tree? (.plain (.sequence buffer)) = some (.sequence trees) := by
  have own : store.Grounded (Payload.sequence buffer).handles := grounded
  obtain ⟨depth, tree, length, shown⟩ := own.exists_payloadTree? (List.cons_ne_nil _ _)
  obtain ⟨trees, itemsShown, rfl⟩ := Option.map_eq_some_iff.mp shown
  refine ⟨trees, mapM_imp ?_ itemsShown, ?_⟩
  · intro item _ tree itemShown
    rw [Store.tree?, length]
    exact tree?_succ itemShown
  · rw [Store.tree?, length]
    exact shown

theorem tree?_boolean (store : Store) (b : Bool) :
    store.tree? (.plain (.boolean b)) = some (.boolean b) := by
  simp [tree?, Item.tree?, payloadTree?]

theorem tree?_number (store : Store) (x : Binary64) :
    store.tree? (.plain (.number x)) = some (.number x) := by
  simp [tree?, Item.tree?, payloadTree?]

theorem tree?_text (store : Store) (s : String) :
    store.tree? (.plain (.text s)) = some (.text s) := by
  simp [tree?, Item.tree?, payloadTree?]

theorem tree?_active (store : Store) (position : Nat) (payload : Payload) :
    store.tree? (.value (.active ⟨position, payload⟩)) =
      (store.tree? (.plain payload)).map (.active position) := rfl

end Store

end LooseValue
