import LooseValue.Proofs.Embedding
import LooseValue.Proofs.Machine.Counting
import LooseValue.Proofs.Store.Trees

/-!
# Reads

A read through a value gives what its active payload leads to, at the position that the closed form
of embedding says; a value that holds nothing, or holds a payload without the access, is refused
under its own name. A read of a state writes nothing: it takes a copy and reports it, and dropping
the copy restores the state.
-/

set_option autoImplicit false

namespace LooseValue

/-- The kind at the active position of a value over a list. -/
def Value.activeKind? (kinds : List Kind) : Value → Option Kind
  | .undefined => none
  | .active alternative => kinds[alternative.position]?

namespace Store

variable {typing : StoreTyping} {store : Store} {kinds : List Kind} {position : Nat} {payload : Ty}

theorem referent_eq {cell : Address} (found : kinds[position]? = some (.shared payload)) :
    store.referent kinds (.active ⟨position, .shared cell⟩) =
      .grant (if (Shape.payloads Kind.referentShape kinds).length = 1 then store.content cell
        else (store.content cell).shift (Shape.offset Kind.referentShape kinds position)) := by
  rw [referent, Shape.embed_eq found rfl]

theorem element_eq_of_getElem? {buffer : Address} {index : Nat} {item : Item}
    (found : kinds[position]? = some (.sequence payload))
    (stored : (store.items buffer)[index]? = some item) :
    store.element kinds index (.active ⟨position, .sequence buffer⟩) =
      .grant (if (Shape.payloads Kind.elementShape kinds).length = 1 then item
        else item.shift (Shape.offset Kind.elementShape kinds position)) := by
  rw [element, itemAt, Sequence.get_of_getElem? stored, ← Shape.embed_eq found rfl]
  rfl

theorem element_eq_of_le {buffer : Address} {index : Nat}
    (beyond : (store.items buffer).length ≤ index) :
    store.element kinds index (.active ⟨position, .sequence buffer⟩) =
      .refuse (.indexOutOfBounds index (store.items buffer).length) := by
  rw [element, itemAt, Sequence.get_of_le beyond]
  rfl

theorem referent_eq_refuse {value : Value} (typed : value.HasKinds typing kinds)
    (unsupported : (value.activeKind? kinds).bind Kind.referentShape = none) :
    store.referent kinds value = .refuse (.invalidAccess "dereference" value.kindName) := by
  cases typed with
  | undefined => rfl
  | active found typed =>
      simp only [Value.activeKind?, found, Option.bind_some] at unsupported
      cases typed with
      | boolean | number | text | sequence => rfl
      | shared => cases unsupported

theorem element_eq_refuse {value : Value} (typed : value.HasKinds typing kinds)
    (unsupported : (value.activeKind? kinds).bind Kind.elementShape = none) (index : Nat) :
    store.element kinds index value = .refuse (.invalidAccess "index" value.kindName) := by
  cases typed with
  | undefined => rfl
  | active found typed =>
      simp only [Value.activeKind?, found, Option.bind_some] at unsupported
      cases typed with
      | boolean | number | text | shared => rfl
      | sequence => cases unsupported

theorem referent_ok_inv {value : Value} {item : Item}
    (granted : (store.referent kinds value).outcome = .ok item) :
    ∃ position cell, value = .active ⟨position, .shared cell⟩ ∧
      Shape.embed Kind.referentShape kinds position (store.content cell) = item := by
  cases value with
  | undefined => cases granted
  | active alternative =>
      obtain ⟨position, payload⟩ := alternative
      cases payload with
      | boolean | number | text | sequence => cases granted
      | shared cell => exact ⟨position, cell, rfl, Except.ok.inj granted⟩

theorem element_ok_inv {value : Value} {index : Nat} {element : Item}
    (granted : (store.element kinds index value).outcome = .ok element) :
    ∃ position buffer item, value = .active ⟨position, .sequence buffer⟩ ∧
      (store.items buffer)[index]? = some item ∧
      Shape.embed Kind.elementShape kinds position item = element := by
  cases value with
  | undefined => cases granted
  | active alternative =>
      obtain ⟨position, payload⟩ := alternative
      cases payload with
      | boolean | number | text | shared => cases granted
      | sequence buffer =>
          cases stored : (store.items buffer)[index]? with
          | none =>
              rw [element_eq_of_le (List.getElem?_eq_none_iff.mp stored)] at granted
              cases granted
          | some item =>
              refine ⟨position, buffer, item, rfl, stored, ?_⟩
              simpa [Store.element, itemAt, Sequence.get_of_getElem? stored, Logged.map,
                Logged.grant, Except.map] using granted

/-- What a read gives out is held inside a live block. -/
theorem mem_handles_of_referent {value : Value} {item : Item} {handle : Address}
    (granted : (store.referent kinds value).outcome = .ok item) (inside : handle ∈ item.handles) :
    handle ∈ store.handles := by
  obtain ⟨position, cell, _, same⟩ := referent_ok_inv granted
  rw [← same, Shape.handles_embed] at inside
  exact mem_handles_of_content inside

theorem mem_handles_of_element {value : Value} {index : Nat} {item : Item} {handle : Address}
    (granted : (store.element kinds index value).outcome = .ok item)
    (inside : handle ∈ item.handles) : handle ∈ store.handles := by
  obtain ⟨position, buffer, found, _, stored, same⟩ := element_ok_inv granted
  rw [← same, Shape.handles_embed] at inside
  exact mem_handles_of_item stored inside

end Store

/-- The second state differs from the first at most in what the target of a read was given. The
blocks that its names lead to are as they were, and where there is no cycle these are the live
ones. -/
structure State.SameBut (target : Option String) (before after : State) : Prop where
  registers : ∀ name, some name ≠ target → after.register? name = before.register? name
  contents : ∀ address block,
    after.store.block? address = some block → before.store.block? address = some block
  kept : before.store.AgreesFrom after.roots after.store
  live : before.store.Acyclic → ∀ address,
    address ∈ after.store.addresses ↔ before.store.Reaches after.roots address
  untargeted : target = none → after = before

/-- What a read makes of its access, for a list that resolves to the shape: it reports the item that
was read, with the events of the access, and gives it to the target; or it reports why there is none,
and changes nothing. -/
structure State.ReadsOut (before : State) (shape : Shape) (access : Logged Item)
    (target : Option String) (after : State) (report : Report) : Prop where
  unresolved : shape = none → after = before ∧ report = .failure .unresolved
  granted : ∀ type item, shape = some type → access.outcome = .ok item →
    report = ⟨.ok (.item type (before.store.tree? item)), access.events⟩ ∧
      ∀ name, target = some name → after.register? name = some ⟨type, item⟩
  refused : ∀ type error, shape = some type → access.outcome = .error error →
    after = before ∧ report = ⟨.error (.access error), access.events⟩

namespace State

variable {state : State}

/-- A counted state with less in its store than before keeps what its names lead to. -/
theorem Counted.sameBut {target : Option String} {after : State} (counted : after.Counted)
    (registers : ∀ name, some name ≠ target → after.register? name = state.register? name)
    (contents : ∀ address block,
      after.store.block? address = some block → state.store.block? address = some block)
    (untargeted : target = none → after = state) : SameBut target state after where
  registers := registers
  contents := contents
  kept := Store.Counted.agreesFrom counted contents
  live := by
    intro acyclic address
    have fewer : after.store.Acyclic := acyclic.of_block? contents
    rw [Store.Counted.mem_addresses_iff_reaches counted fewer]
    exact ⟨fun reached => reached.of_block? contents,
      Store.Counted.reaches_of_reaches counted contents⟩
  untargeted := untargeted

private theorem Counted.sameBut_self (counted : state.Counted) (target : Option String) :
    SameBut target state state :=
  counted.sameBut (fun _ _ => rfl) (fun _ _ found => found) fun _ => rfl

/-- Copying out what was read from live blocks changes the target and nothing else. -/
theorem Counted.copyOut (counted : state.Counted) (target : Option String) (type : Ty)
    (access : Logged Item)
    (live : ∀ item, access.outcome = .ok item → ∀ handle ∈ item.handles, handle ∈ state.store.handles) :
    SameBut target state (state.copyOut target type access).1 := by
  cases outcome : access.outcome with
  | error error =>
      simp only [State.copyOut, outcome]
      exact counted.sameBut_self target
  | ok item =>
      have known : ∀ handle ∈ item.handles, handle ∈ state.store.addresses := by
        intro handle inside
        exact (counted.live handle).mpr (List.mem_append_right _ (live item outcome handle inside))
      have retained : (state.store.retain item.handles).Counted (item.handles ++ state.roots) :=
        Store.Counted.retain counted known
      simp only [State.copyOut, outcome, produce]
      cases target with
      | none =>
          have restored := counted.release_retain known
          have same : (state.retain item).deliver none ⟨type, item⟩ = state := by
            simp only [State.retain, State.deliver, State.release, restored]
          rw [same]
          exact counted.sameBut_self none
      | some name =>
          refine Counted.sameBut ((state.retain item).counted_put name ⟨type, item⟩ retained) ?_ ?_ ?_
          · intro other different
            exact register?_assign_of_ne (by simpa using different) _
          · intro address block found
            have kept := Store.block?_of_block?_release retained.distinct found
            rwa [Store.block?_retain] at kept
          · intro absent
            cases absent

private theorem copyOut_readsOut (state : State) (target : Option String) (type : Ty)
    (access : Logged Item) :
    state.ReadsOut (some type) access target (state.copyOut target type access).1
      (state.copyOut target type access).2 where
  unresolved := by
    intro absent
    cases absent
  granted := by
    rintro _ item ⟨rfl⟩ outcome
    simp only [State.copyOut, outcome, produce, State.retain, Store.tree?_retain]
    refine ⟨rfl, ?_⟩
    rintro name rfl
    exact register?_assign_self ..
  refused := by
    rintro _ error ⟨rfl⟩ outcome
    simp only [State.copyOut, outcome, and_self]

theorem Counted.read (counted : state.Counted) {shape : Shape} {access : Logged Item}
    {target : Option String} {stepped : Option (State × Report)}
    (live : ∀ item, access.outcome = .ok item → ∀ handle ∈ item.handles, handle ∈ state.store.handles)
    (reads : stepped = match shape with
      | none => some (state, .failure .unresolved)
      | some result => some (state.copyOut target result access)) :
    ∃ next report, stepped = some (next, report) ∧
      state.SameBut target next ∧ state.ReadsOut shape access target next report := by
  cases shape with
  | none =>
      refine ⟨state, _, reads, counted.sameBut_self target, fun _ => ⟨rfl, rfl⟩, ?_, ?_⟩
      · intro type item absent
        cases absent
      · intro type error absent
        cases absent
  | some result =>
      exact ⟨_, _, reads, counted.copyOut target result access live,
        state.copyOut_readsOut target result access⟩

end State

/-- Both reads of a value over any list, in any state: the position where they land, what they
refuse, and, where the state is counted, that they report this and leave everything but their target
alone. -/
theorem reads_land_at_offset (state : State) (kinds : List Kind) (value : Value) (index : Nat) :
    (∀ position cell payload, value = .active ⟨position, .shared cell⟩ →
      kinds[position]? = some (.shared payload) →
      state.store.referent kinds value =
        .grant (if (Shape.payloads Kind.referentShape kinds).length = 1 then state.store.content cell
          else (state.store.content cell).shift (Shape.offset Kind.referentShape kinds position))) ∧
    (∀ position buffer payload, value = .active ⟨position, .sequence buffer⟩ →
      kinds[position]? = some (.sequence payload) →
      (∀ item, (state.store.items buffer)[index]? = some item →
        state.store.element kinds index value =
          .grant (if (Shape.payloads Kind.elementShape kinds).length = 1 then item
            else item.shift (Shape.offset Kind.elementShape kinds position))) ∧
      ((state.store.items buffer).length ≤ index →
        state.store.element kinds index value =
          .refuse (.indexOutOfBounds index (state.store.items buffer).length))) ∧
    (∀ typing, value.HasKinds typing kinds →
      ((value.activeKind? kinds).bind Kind.referentShape = none →
        state.store.referent kinds value = .refuse (.invalidAccess "dereference" value.kindName)) ∧
      ((value.activeKind? kinds).bind Kind.elementShape = none →
        state.store.element kinds index value = .refuse (.invalidAccess "index" value.kindName))) ∧
    (state.Counted → ∀ allocator name type target,
      (∃ next report,
        state.valueStep? allocator name type kinds value (.referent target) = some (next, report) ∧
        state.SameBut target next ∧
        state.ReadsOut (Shape.referent kinds) (state.store.referent kinds value) target next
          report) ∧
      ∃ next report,
        state.valueStep? allocator name type kinds value (.element index target) =
          some (next, report) ∧
        state.SameBut target next ∧
        state.ReadsOut (Shape.element kinds) (state.store.element kinds index value) target next
          report) := by
  refine ⟨?_, ?_, ?_, ?_⟩
  · intro position cell payload active found
    rw [active]
    exact Store.referent_eq found
  · intro position buffer payload active found
    rw [active]
    exact ⟨fun item stored => Store.element_eq_of_getElem? found stored,
      fun beyond => Store.element_eq_of_le beyond⟩
  · intro typing typed
    exact ⟨Store.referent_eq_refuse typed, fun unsupported =>
      Store.element_eq_refuse typed unsupported index⟩
  · intro counted allocator name type target
    constructor
    · exact counted.read
        (fun _ granted _ inside => Store.mem_handles_of_referent granted inside) rfl
    · exact counted.read
        (fun _ granted _ inside => Store.mem_handles_of_element granted inside) rfl

/-- A named reference to a cell with a number, behind another reference in its list. -/
def nestedReferenceKinds : List Kind :=
  [.shared (.kind .number), .boolean, .shared (.value [.text, .number])]

def nestedReference : Value := .active ⟨2, .shared 7⟩

def nestedReferenceState : State where
  store := ⟨[⟨7, 1, .cell (.value (.active ⟨1, .number (.zero false)⟩))⟩]⟩
  registers := [("v", ⟨.value nestedReferenceKinds, .value nestedReference⟩)]

private theorem nestedReferenceState_counted : nestedReferenceState.Counted where
  distinct := by decide
  holders := by decide
  live := by
    intro address
    simp [nestedReferenceState, nestedReference, State.roots, Store.addresses, Store.handles,
      Block.handles, Item.handles, Value.handles, Payload.handles]

/-- The number stands at position one of its cell, and past the number of the first reference at
position two of the result, which is what the read reports; dropping the result restores the
state. -/
theorem nestedReference_lands_at_two :
    nestedReferenceState.Counted ∧
    nestedReferenceState.store.referent nestedReferenceKinds nestedReference =
      .grant (.value (.active ⟨2, .number (.zero false)⟩)) ∧
    nestedReferenceState.valueStep? .ascending "v" (.value nestedReferenceKinds)
        nestedReferenceKinds nestedReference (.referent none) =
      some (nestedReferenceState, .answer (.item (.value [.number, .text, .number])
        (some (.active 2 (.number (.zero false)))))) := by
  obtain ⟨lands, _, _, reads⟩ :=
    reads_land_at_offset nestedReferenceState nestedReferenceKinds nestedReference 0
  have landed := lands 2 7 _ rfl rfl
  refine ⟨nestedReferenceState_counted, landed, ?_⟩
  obtain ⟨next, report, stepped, sameBut, readsOut⟩ :=
    (reads nestedReferenceState_counted .ascending "v" (.value nestedReferenceKinds) none).1
  obtain ⟨reported, _⟩ := readsOut.granted (.value [.number, .text, .number]) _ rfl
    (congrArg Logged.outcome landed)
  rw [stepped, sameBut.untargeted rfl, reported, landed]
  rfl

end LooseValue
