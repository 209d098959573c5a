import LooseValue.Proofs.Machine.Effects
import LooseValue.Proofs.Machine.Frame
import LooseValue.Proofs.Store.Nesting
import LooseValue.Proofs.Store.Ownership

/-!
# Detailed texts and debug texts

The detailed text of a plain payload and its debug text are written by two recursions over the same
content. The former becomes the latter where it meets a value, and up to there the two write the
same for everything but numbers. So they agree on a payload of a kind just if the chain of
references and sequences that the kind is made of does not end in a plain number.
-/

set_option autoImplicit false

namespace LooseValue

mutual

/-- Whether the chain of references and sequences ends in a plain number. -/
def Kind.endsInNumber : Kind → Bool
  | .number => true
  | .boolean | .text => false
  | .shared payload => payload.endsInNumber
  | .sequence payload => payload.endsInNumber

def Ty.endsInNumber : Ty → Bool
  | .kind kind => kind.endsInNumber
  | .value _ | .dynamic => false

end

/-! ## Agreement -/

private theorem Tree.detailAll_eq_debugAll {trees : List Tree}
    (same : ∀ tree ∈ trees, tree.detail = tree.debug) : detailAll trees = debugAll trees := by
  induction trees with
  | nil => rfl
  | cons tree trees ih =>
      rw [detailAll, debugAll, same tree List.mem_cons_self,
        ih fun other member => same other (List.mem_cons_of_mem _ member)]

/-- By induction on the depth to which content is followed; a value ends it at any depth. -/
theorem Store.WellTyped.detail_eq_debug {typing : StoreTyping} {store : Store} {payload : Payload}
    {kind : Kind} {depth : Nat} {tree : Tree} (typed : store.WellTyped typing)
    (payloadTyped : payload.HasKind typing kind) (numberless : kind.endsInNumber = false)
    (shown : store.payloadTree? depth payload = some tree) : tree.detail = tree.debug := by
  induction depth generalizing payload kind tree with
  | zero =>
      cases payloadTyped with
      | number => cases numberless
      | boolean | text =>
          cases shown
          rfl
      | shared | sequence => cases shown
  | succ depth ih =>
      have inner : ∀ {item : Item} {type : Ty} {tree : Tree}, item.HasType typing type →
          type.endsInNumber = false → item.tree? (store.payloadTree? depth) = some tree →
          tree.detail = tree.debug := by
        intro item type tree itemTyped bare itemShown
        cases itemTyped with
        | plain plainTyped => exact ih plainTyped bare itemShown
        | value _ valueTyped =>
            cases valueTyped with
            | undefined =>
                cases itemShown
                rfl
            | active =>
                obtain ⟨own, _, rfl⟩ := Option.map_eq_some_iff.mp itemShown
                rfl
      cases payloadTyped with
      | number => cases numberless
      | boolean | text =>
          cases shown
          rfl
      | shared known =>
          obtain ⟨content, contentShown, rfl⟩ := Option.map_eq_some_iff.mp shown
          rw [Tree.detail, Tree.debug]
          rcases typed.content_typed known with missing | contentTyped
          · rw [missing] at contentShown
            cases contentShown
            rfl
          · rw [inner contentTyped numberless contentShown]
      | sequence known =>
          obtain ⟨trees, itemsShown, rfl⟩ := Option.map_eq_some_iff.mp shown
          rw [Tree.detail, Tree.debug]
          congr 1
          apply Tree.detailAll_eq_debugAll
          intro tree member
          obtain ⟨item, listed, itemShown⟩ := exists_mem_of_mapM itemsShown member
          exact inner (typed.items_typed known item listed) numberless itemShown

private theorem Profile.texts_ofPayload {store : Store} {payload : Payload} {tree : Tree}
    (shown : store.tree? (.plain payload) = some tree) :
    (Profile.ofPayload store payload).texts = some (.ofTree tree) := by
  change (store.tree? (.plain payload)).map PayloadTexts.ofTree = _
  rw [shown, Option.map_some]

/-- The texts of a payload of the kind are there. The detailed one is the debug text unless the kind
ends in a plain number, and for a reference it is the same on one line and on several. -/
def Profile.TextsAgree (profile : Profile) (kind : Kind) : Prop :=
  ∃ texts, profile.texts = some texts ∧
    (kind.endsInNumber = false → texts.detail = texts.debug) ∧
    ∀ payload, kind = .shared payload → texts.detailLines = texts.detail

private theorem Store.WellTyped.textsAgree {typing : StoreTyping} {store : Store}
    {payload : Payload}
    {kind : Kind} (typed : store.WellTyped typing) (payloadTyped : payload.HasKind typing kind)
    (grounded : store.Grounded payload.handles) :
    (Profile.ofPayload store payload).TextsAgree kind := by
  have own : store.Grounded (Item.plain payload).handles := grounded
  obtain ⟨tree, shown⟩ := own.exists_tree?
  refine ⟨.ofTree tree, Profile.texts_ofPayload shown, ?_, ?_⟩
  · intro numberless
    exact congrArg String.ofList (typed.detail_eq_debug payloadTyped numberless shown)
  · rintro referent rfl
    cases payloadTyped with
    | @shared cell =>
        obtain ⟨content, _, outer⟩ := grounded.tree?_shared
        cases shown.symm.trans outer
        rfl

/-! ## Disagreement -/

section Differing

variable {allocator : Allocator} {registers : List (String × Register)}

private theorem Tree.shared_differs {tree : Tree} (differs : tree.detail ≠ tree.debug) :
    (Tree.shared tree).detail ≠ (Tree.shared tree).debug := by
  intro same
  rw [detail, debug] at same
  exact differs (List.cons.inj same).2

private theorem Tree.sequence_differs {tree : Tree} (differs : tree.detail ≠ tree.debug) :
    (Tree.sequence [tree]).detail ≠ (Tree.sequence [tree]).debug := by
  intro same
  simp only [detail, detailAll, debug, debugAll, bracketed, List.intercalate_singleton,
    List.cons.injEq, List.append_cancel_right_eq, true_and] at same
  exact differs same

mutual

private theorem Ty.exists_differing : ∀ (type : Ty), type.endsInNumber = true → ∀ store : Store,
    ∃ literal item after tree,
      Literal.build allocator registers literal type store = some (item, after) ∧
      after.Grounded item.handles ∧ after.tree? item = some tree ∧ tree.detail ≠ tree.debug
  | .kind kind, ends, store => by
      obtain ⟨literal, payload, after, tree, built, grounded, shown, differs⟩ :=
        Kind.exists_differing kind ends store
      exact ⟨literal, .plain payload, after, tree, built, grounded, shown, differs⟩

/-- Zero at the end of the chain, in one cell or one buffer of one item for each link of it. -/
theorem Kind.exists_differing : ∀ (kind : Kind), kind.endsInNumber = true → ∀ store : Store,
    ∃ literal payload after tree,
      Literal.build allocator registers literal (.kind kind) store = some (.plain payload, after) ∧
      after.Grounded payload.handles ∧ after.tree? (.plain payload) = some tree ∧
      tree.detail ≠ tree.debug
  | .number, _, store => by
      exact ⟨.number (.zero false), _, store, _, rfl, store.grounded_nil, store.tree?_number _,
        by decide⟩
  | .shared payload, ends, store => by
      obtain ⟨literal, item, after, tree, built, grounded, shown, differs⟩ :=
        Ty.exists_differing payload ends store
      refine ⟨.shared literal, _, _, .shared tree, ?_, grounded.allocate (.cell item) allocator,
        grounded.tree?_allocate_cell shown, Tree.shared_differs differs⟩
      rw [Literal.build, built]
  | .sequence payload, ends, store => by
      obtain ⟨literal, item, after, tree, built, grounded, shown, differs⟩ :=
        Ty.exists_differing payload ends store
      have one : after.Grounded (Block.buffer [item]).handles := by
        simpa [Block.handles] using grounded
      have listed : [item].mapM after.tree? = some [tree] := by simp [shown]
      refine ⟨.sequence [literal], _, _, .sequence [tree], ?_, one.allocate (.buffer [item]) allocator,
        one.tree?_allocate_buffer listed, Tree.sequence_differs differs⟩
      simp only [Literal.build, Literal.buildAll, built]

end

end Differing

namespace State

variable {state : State}

/-- A number at the end of a chain can be put under a name so that the two texts of it differ. -/
theorem exists_differing (allocator : Allocator) (name : String) {kind : Kind}
    (ends : kind.endsInNumber = true) :
    ∃ (state : State) (payload : Payload) (texts : PayloadTexts),
      (∃ ops, (initial.run allocator ops).1 = state) ∧ state.store.Acyclic ∧
      state.register? name = some ⟨.kind kind, .plain payload⟩ ∧
      (Profile.ofPayload state.store payload).texts = some texts ∧ texts.detail ≠ texts.debug := by
  obtain ⟨literal, payload, after, tree, built, _, shown, differs⟩ :=
    kind.exists_differing ends initial.store
  have reached := step_create_of_unnamed (rfl : initial.register? name = none) built
  have growth := (sound_initial fun _ => none).grown_build built
  have acyclic := growth.acyclic Store.acyclic_empty fun handle inside => (List.not_mem_nil inside).elim
  refine ⟨_, payload, .ofTree tree, ⟨[_], reached⟩, acyclic, List.lookup_cons_self,
    Profile.texts_ofPayload shown, ?_⟩
  intro same
  exact differs (String.ofList_inj.mp same)

/-- In an acyclic state the two texts of whatever is stored agree, up to chains that end in a plain
number; and no such chain is left for which they always do. -/
theorem debug_texts_agree (reachable : state.Reachable) (allocator : Allocator)
    (acyclic : state.store.Acyclic) :
    (∃ typing, state.Sound typing [] ∧
      ∀ payload kind, payload.HasKind typing kind →
        (∀ handle ∈ payload.handles, handle ∈ state.store.addresses) →
        (Profile.ofPayload state.store payload).TextsAgree kind) ∧
    (∀ name kind payload, state.register? name = some ⟨.kind kind, .plain payload⟩ →
      (state.step allocator (.profile name)).2.outcome =
          .ok (.profile (.ofPayload state.store payload)) ∧
        (Profile.ofPayload state.store payload).TextsAgree kind) ∧
    ∀ kind name, kind.endsInNumber = true →
      ∃ (other : State) (payload : Payload) (texts : PayloadTexts),
        (∃ ops, (initial.run allocator ops).1 = other) ∧ other.store.Acyclic ∧
        other.register? name = some ⟨.kind kind, .plain payload⟩ ∧
        (Profile.ofPayload other.store payload).texts = some texts ∧
        texts.detail ≠ texts.debug := by
  obtain ⟨typing, sound⟩ := reachable.sound
  have agree : ∀ payload kind, payload.HasKind typing kind →
      (∀ handle ∈ payload.handles, handle ∈ state.store.addresses) →
      (Profile.ofPayload state.store payload).TextsAgree kind := by
    intro payload kind payloadTyped live
    refine sound.store.typed.textsAgree payloadTyped ⟨fun address _ => acyclic address, ?_⟩
    exact fun _ => sound.counted.mem_addresses_of_reaches live
  refine ⟨⟨typing, sound, agree⟩, ?_, fun _ name => exists_differing allocator name⟩
  intro name kind payload named
  constructor
  · simp [step, step?, named, profileReport]
  · cases sound.typed_of_register? named with
    | plain payloadTyped => exact agree payload kind payloadTyped (sound.live_of_register? named)

/-- A sequence of references to texts has one text on both ways. -/
theorem asideNamed_texts :
    asideNamed.Reachable ∧ asideNamed.store.Acyclic ∧
    ∃ profile texts, (asideNamed.step .ascending (.profile "z")).2.outcome = .ok (.profile profile) ∧
      profile.texts = some texts ∧ texts.detail = texts.debug := by
  have acyclic : asideNamed.store.Acyclic := Store.acyclic_of_descending (by decide)
  obtain ⟨_, named, _⟩ := debug_texts_agree asideNamed_reachable .ascending acyclic
  obtain ⟨answered, texts, shown, same, _⟩ := named "z" (.sequence cellType) _ rfl
  exact ⟨asideNamed_reachable, acyclic, _, texts, answered, shown, same rfl⟩

end State

end LooseValue
