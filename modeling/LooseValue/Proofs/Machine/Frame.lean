import LooseValue.Proofs.Machine.Writes

/-!
# Frames of steps

A step that writes through a handle changes the one block that the handle leads to. All other blocks
that stay live keep their content, so that a named item looks as before, in its tree and in its
texts, unless the written block can be reached from it; and whoever holds a handle to the written
block reads the new content. A step on the slot of a value changes no block at all.
-/

set_option autoImplicit false

namespace LooseValue

/-! ## What can be read of a block -/

/-- All that can be read through a handle to a block with the given content. -/
def Store.ReadsAs (store : Store) (address : Address) : Block → Prop
  | .cell item =>
      store.content address = item ∧
      ∀ kinds position, store.referent kinds (.active ⟨position, .shared address⟩) =
        .grant (Shape.embed Kind.referentShape kinds position item)
  | .buffer items =>
      store.items address = items ∧
      (∀ kinds position index item, items[index]? = some item →
        store.element kinds index (.active ⟨position, .sequence address⟩) =
          .grant (Shape.embed Kind.elementShape kinds position item)) ∧
      ∀ kinds position index, items.length ≤ index →
        store.element kinds index (.active ⟨position, .sequence address⟩) =
          .refuse (.indexOutOfBounds index items.length)

private theorem Store.readsAs_of_block? {store : Store} {address : Address} {block : Block}
    (found : store.block? address = some block) : store.ReadsAs address block := by
  cases block with
  | cell item =>
      have content : store.content address = item := by rw [content_eq, found]
      refine ⟨content, ?_⟩
      intro kinds position
      rw [referent, content]
  | buffer items =>
      have items : store.items address = items := by rw [items_eq, found]
      subst items
      refine ⟨rfl, ?_, fun _ _ _ => element_eq_of_le⟩
      intro kinds position index item stored
      rw [element, itemAt, Sequence.get_of_getElem? stored]
      rfl

namespace State

/-! ## What can be seen of a name -/

/-- The tree of a named item. -/
def dump? (state : State) (name : String) : Option Tree :=
  (state.register? name).bind fun register => state.store.tree? register.item

def displayed? (state : State) (name : String) : Option (List Char) :=
  (state.dump? name).map Tree.render

def debugged? (state : State) (name : String) : Option (List Char) :=
  (state.dump? name).map Tree.debug

/-- A name is bound in both states and looks the same in both. -/
structure LooksSame (before after : State) (name : String) : Prop where
  dump : ∃ tree, before.dump? name = some tree ∧ after.dump? name = some tree
  displayed : after.displayed? name = before.displayed? name
  debugged : after.debugged? name = before.debugged? name

variable {typing laterTyping : StoreTyping} {state next : State}
  {name : String} {register : Register} {target : Option String} {address : Address}
  {block : Block}

private theorem looksSame_of_frame {changed : Address → Prop} (sound : state.Sound typing [])
    (nextSound : next.Sound laterTyping []) (acyclic : state.store.Acyclic)
    (frame : state.store.Frame changed next.store) (named : state.register? name = some register)
    (kept : next.register? name = state.register? name)
    (untouched : ∀ address, state.store.Reaches register.item.handles address → ¬ changed address) :
    state.LooksSame next name := by
  have nextNamed : next.register? name = some register := kept.trans named
  obtain ⟨agrees, alive⟩ := frame.agreesFrom sound.counted nextSound.counted
    (Sound.mem_roots_of_register? named) (Sound.mem_roots_of_register? nextNamed) untouched
  have live : ∀ address, state.store.Reaches register.item.handles address →
      address ∈ state.store.addresses := by
    intro address
    exact sound.counted.mem_addresses_of_reaches (sound.live_of_register? named)
  obtain ⟨tree, shown, nextShown⟩ := agrees.tree? (fun address _ => acyclic address) live alive
  have dump : state.dump? name = some tree := by rw [dump?, named, Option.bind_some, shown]
  have nextDump : next.dump? name = some tree := by
    rw [dump?, nextNamed, Option.bind_some, nextShown]
  refine ⟨⟨tree, dump, nextDump⟩, ?_, ?_⟩
  · rw [displayed?, displayed?, dump, nextDump]
  · rw [debugged?, debugged?, dump, nextDump]

/-! ## The frame of a step -/

theorem Overwrites.frame (overwrites : state.Overwrites address block target next) :
    state.store.Frame (· = address) next.store := by
  obtain ⟨built, previous, dropped, keeps, distinct, found, same⟩ := overwrites.store
  rw [same]
  exact keeps.frame_write_release distinct dropped

private theorem Overwrites.readsAs (overwrites : state.Overwrites address block target next)
    (live : address ∈ next.store.addresses) : next.store.ReadsAs address block := by
  obtain ⟨built, previous, dropped, keeps, distinct, found, same⟩ := overwrites.store
  rw [same] at live ⊢
  exact Store.readsAs_of_block?
    (Store.block?_of_write_release (keeps _ _ found) distinct live)

theorem Spares.frame {name : String} (spares : state.Spares name target next) :
    state.store.Frame (fun _ => False) next.store := by
  obtain ⟨built, dropped, keeps, distinct, same⟩ := spares.store
  rw [same]
  exact keeps.frame_release distinct dropped

/-- A write changes the one block it writes, as every handle to that block can see, and no name from
which that block cannot be reached; a step on a slot changes no block and no other name. -/
theorem step_frame (reachable : state.Reachable) (allocator : Allocator)
    (acyclic : state.store.Acyclic) :
    (∀ op answer, op.isWrite = true → (state.step allocator op).2.outcome = .ok answer →
      answer ≠ .done → ∃ address block target, state.Writes allocator op address block target) ∧
    (∀ op address block target, state.Writes allocator op address block target →
      let next := (state.step allocator op).1
      state.store.Frame (· = address) next.store ∧
      (∀ other register, some other ≠ target → state.register? other = some register →
        ¬ state.store.Reaches register.item.handles address → state.LooksSame next other) ∧
      (address ∈ next.roots ++ next.store.handles → next.store.ReadsAs address block)) ∧
    (∀ op name target, op.OnSlot name target →
      let next := (state.step allocator op).1
      state.store.Frame (fun _ => False) next.store ∧
      ∀ other register, other ≠ name → some other ≠ target →
        state.register? other = some register → state.LooksSame next other) := by
  obtain ⟨typing, sound⟩ := reachable.sound
  refine ⟨fun _ _ => sound.exists_writes, ?_, ?_⟩
  · intro op address block target writes
    obtain ⟨_, nextSound⟩ := sound.step allocator op
    have overwrites := writes.overwrites sound
    refine ⟨overwrites.frame, ?_, ?_⟩
    · intro other register different named unreached
      refine looksSame_of_frame sound nextSound acyclic overwrites.frame named
        (overwrites.registers other different) ?_
      rintro candidate candidateReached rfl
      exact unreached candidateReached
    · intro held
      exact overwrites.readsAs ((nextSound.counted.live address).mpr held)
  · intro op name target onSlot
    obtain ⟨_, nextSound⟩ := sound.step allocator op
    have spares : state.Spares name target (state.step allocator op).1 := sound.spares onSlot
    refine ⟨spares.frame, ?_⟩
    intro other register different notTarget named
    exact looksSame_of_frame sound nextSound acyclic spares.frame named
      (spares.registers other different notTarget) fun _ _ changed => changed

def cellType : Ty := .kind (.shared (.kind .text))

/-- Two names for one cell with a text, a sequence with another cell, and a value with a number. -/
def asideNamed : State where
  store := ⟨[⟨3, 1, .buffer [.plain (.shared 2)]⟩, ⟨2, 1, .cell (.plain (.text "b"))⟩,
    ⟨1, 2, .cell (.plain (.text "a"))⟩]⟩
  registers := [("v", ⟨.value [.number], .value (.active ⟨0, .number (.zero false)⟩)⟩),
    ("z", ⟨.kind (.sequence cellType), .plain (.sequence 3)⟩),
    ("y", ⟨cellType, .plain (.shared 1)⟩), ("x", ⟨cellType, .plain (.shared 1)⟩)]

theorem asideNamed_reachable : asideNamed.Reachable := by
  have shared := Reachable.initial.create .ascending "x" cellType (.shared (.text "a")) rfl rfl
  have aliased := shared.clone "x" "y" rfl rfl
  have sequence := aliased.create .ascending "z" (.kind (.sequence cellType))
    (.sequence [.shared (.text "b")]) rfl rfl
  exact sequence.create .ascending "v" (.value [.number]) (.active 0 (.number (.zero false))) rfl rfl

def rewriteText : Op := .shared "x" (.write (.text "c"))

/-- A text that is written under one name of the cell is read under the other, and the sequence
looks as before; so it does after the value was cleared. -/
theorem asideNamed_written :
    asideNamed.Reachable ∧ asideNamed.store.Acyclic ∧
    (asideNamed.step .ascending rewriteText).1.store.ReadsAs 1 (.cell (.plain (.text "c"))) ∧
    asideNamed.LooksSame (asideNamed.step .ascending rewriteText).1 "z" ∧
    asideNamed.LooksSame (asideNamed.step .ascending (.value "v" .clear)).1 "z" := by
  have acyclic : asideNamed.store.Acyclic := Store.acyclic_of_descending (by decide)
  have written : asideNamed.Writes .ascending rewriteText 1 (.cell (.plain (.text "c"))) none :=
    .write rfl rfl
  have cleared : Op.OnSlot "v" (.value "v" .clear) none := .clear
  have roots : (asideNamed.step .ascending rewriteText).1.roots = [3, 1, 1] := rfl
  have apart : ¬ asideNamed.store.Reaches [3] 1 := by
    intro reached
    have within : 2 ≤ 1 := reached.passes (P := (2 ≤ ·)) (by decide) (by decide)
    omega
  obtain ⟨_, writes, slots⟩ := step_frame asideNamed_reachable .ascending acyclic
  obtain ⟨_, looks, reads⟩ := writes _ _ _ _ written
  obtain ⟨_, others⟩ := slots _ _ _ cleared
  exact ⟨asideNamed_reachable, acyclic, reads (List.mem_append_left _ (by simp [roots])),
    looks "z" _ (by decide) rfl apart, others "z" _ (by decide) (by decide) rfl⟩

end State

end LooseValue
