import LooseValue.Proofs.Machine.Renaming

/-!
# Runs of renamed states

A run cannot tell which addresses the blocks of a store have. From a state and from its renamed form,
each operation has the same report, and leads to states of which one is a renamed form of the other;
with what is new, the renaming may differ from step to step. So whole runs have the same reports,
though blocks go away and their addresses are picked again in one of them and not in the other.
-/

set_option autoImplicit false

namespace LooseValue

namespace State

variable {ρ σ : Renaming} {state : State} {typing : StoreTyping}

/-! ## Steps -/

/-- Building in a renamed state, with what is new renamed as well. The state before it does not know
the new addresses, so that it is renamed alike. -/
theorem Sound.exists_build_rename (sound : state.Sound typing []) (ρ : Renaming)
    (first second : Allocator) (literal : Literal) (type : Ty) :
    ∃ σ : Renaming, σ.Extends ρ state.store ∧ state.rename ρ = state.rename σ ∧
      literal.build second (state.rename σ).registers type (state.rename σ).store =
        (literal.build first state.registers type state.store).map
          (Prod.map (Item.rename σ) (Store.rename σ)) := by
  have closed : ∀ handle ∈ state.store.handles, handle ∈ state.store.addresses :=
    fun _ => sound.store.mem_addresses_of_handles
  have live : ∀ named ∈ state.registers, ∀ handle ∈ named.2.item.handles,
      handle ∈ state.store.addresses := fun named member handle inside =>
    sound.counted.mem_addresses (List.mem_flatMap.mpr ⟨named, member, inside⟩)
  obtain ⟨σ, extended, built⟩ := literal.build_alike first second ρ type closed live
  have same : state.rename ρ = state.rename σ := by
    rw [rename, rename, extended.rename_store closed, extended.renameAll live]
  refine ⟨σ, extended, same, ?_⟩
  rw [← same]
  exact built

private theorem Sound.exists_buildPayload_rename (sound : state.Sound typing []) (ρ : Renaming)
    (first second : Allocator) (literal : Literal) (kind : Kind) :
    ∃ σ : Renaming, σ.Extends ρ state.store ∧ state.rename ρ = state.rename σ ∧
      literal.buildPayload second (state.rename σ).registers kind (state.rename σ).store =
        (literal.buildPayload first state.registers kind state.store).map
          (Prod.map (Payload.rename σ) (Store.rename σ)) := by
  obtain ⟨σ, extended, same, built⟩ := sound.exists_build_rename ρ first second literal (.kind kind)
  refine ⟨σ, extended, same, ?_⟩
  simp only [Literal.buildPayload, built]
  rcases literal.build first state.registers (.kind kind) state.store with
    _ | ⟨payload | value, after⟩ <;> rfl

/-- The outcome of a step with the addresses of the next state renamed. The report shows none. -/
abbrev renameOutcome (σ : Renaming) : Option (State × Report) → Option (State × Report) :=
  Option.map (Prod.map (rename σ) id)

private theorem bind_renameOutcome {α : Type} {rename : Renaming → α → α}
    {made : Option (α × Store)}
    {next renamedNext : α × Store → Option (State × Report)}
    (continued : ∀ content after,
      renamedNext (rename σ content, after.rename σ) = renameOutcome σ (next (content, after))) :
    (made.map (Prod.map (rename σ) (Store.rename σ))).bind renamedNext =
      renameOutcome σ (made.bind next) := by
  cases made with
  | none => rfl
  | some made => exact continued made.1 made.2

private theorem Sound.exists_valueStep?_rename (sound : state.Sound typing []) (ρ : Renaming)
    (first second : Allocator) (name : String) (type : Ty) (kinds : List Kind) {value : Value}
    (live : ∀ handle ∈ value.handles, handle ∈ state.store.addresses) (op : ValueOp) :
    ∃ σ, (state.rename ρ).valueStep? second name type kinds (value.rename ρ) op =
      renameOutcome σ (state.valueStep? first name type kinds value op) := by
  -- An operation that builds is renamed by what its argument has led to, and any other by `ρ` itself.
  cases op with
  | summary => exact ⟨ρ, by simp [State.valueStep?, Summary.ofValue_rename]⟩
  | set position literal =>
      simp only [State.valueStep?, Option.bind_eq_bind]
      cases kinds[position]? with
      | none => exact ⟨ρ, rfl⟩
      | some kind =>
          obtain ⟨σ, extended, same, built⟩ :=
            sound.exists_buildPayload_rename ρ first second literal kind
          refine ⟨σ, ?_⟩
          simp only [Option.bind_some, same, ← extended.rename_value live, built]
          exact bind_renameOutcome fun payload after => by simp
  | clear =>
      have cleared : (state.rename ρ).put name ⟨type, .value .undefined⟩ =
          (state.put name ⟨type, .value .undefined⟩).rename ρ :=
        state.put_rename name ⟨type, .value .undefined⟩
      refine ⟨ρ, ?_⟩
      simp only [State.valueStep?, cleared, Value.isUndefined_rename, Value.kindName_rename]
      rfl
  | take target =>
      have emptied : (state.rename ρ).assign name ⟨type, .value .undefined⟩ =
          (state.assign name ⟨type, .value .undefined⟩).rename ρ :=
        state.assign_rename name ⟨type, .value .undefined⟩
      exact ⟨ρ, by simp [State.valueStep?, emptied]⟩
  | rewrap target => exact ⟨ρ, by simp [State.valueStep?]⟩
  | get position target =>
      refine ⟨ρ, ?_⟩
      simp only [State.valueStep?, Value.payloadAt?_rename]
      cases kinds[position]? with
      | none => rfl
      | some kind =>
          cases value.payloadAt? position with
          | none => simp
          | some payload => simp
  | overwrite position literal =>
      simp only [State.valueStep?, Option.bind_eq_bind]
      cases kinds[position]? with
      | none => exact ⟨ρ, rfl⟩
      | some kind =>
          obtain ⟨σ, extended, same, built⟩ :=
            sound.exists_buildPayload_rename ρ first second literal kind
          refine ⟨σ, ?_⟩
          simp only [Option.bind_some, same, ← extended.rename_value live, built,
            Value.payloadAt?_rename]
          refine bind_renameOutcome fun payload after => ?_
          cases value.payloadAt? position with
          | none => simp
          | some previous => simp
  | referent target =>
      refine ⟨ρ, ?_⟩
      simp only [State.valueStep?, store_rename, Store.referent_rename, copyOut_rename]
      cases Shape.referent kinds with
      | none => rfl
      | some result => simp
  | element index target =>
      refine ⟨ρ, ?_⟩
      simp only [State.valueStep?, store_rename, Store.element_rename, copyOut_rename]
      cases Shape.element kinds with
      | none => rfl
      | some result => simp
  | setElement index literal =>
      simp only [State.valueStep?, Option.bind_eq_bind]
      cases Shape.element kinds with
      | none => exact ⟨ρ, rfl⟩
      | some result =>
          obtain ⟨σ, extended, same, built⟩ := sound.exists_build_rename ρ first second literal result
          refine ⟨σ, ?_⟩
          simp only [same, ← extended.rename_value live, built]
          refine bind_renameOutcome fun item after => ?_
          simp only [Store.setElement_rename]
          obtain ⟨written, outcome, events⟩ := after.setElement kinds index item value
          cases outcome with
          | error error => simp
          | ok => simp
  | compare scalar => exact ⟨ρ, by simp [State.valueStep?]⟩

variable {cell buffer : Address}

private theorem Sound.exists_exchangeContent?_rename (sound : state.Sound typing []) (ρ : Renaming)
    (first second : Allocator) (payload : Ty) (live : cell ∈ state.store.addresses)
    (literal : Literal) (target : Option String) :
    ∃ σ, (state.rename ρ).exchangeContent? second payload (ρ cell) literal target =
      renameOutcome σ (state.exchangeContent? first payload cell literal target) := by
  obtain ⟨σ, extended, same, built⟩ := sound.exists_build_rename ρ first second literal payload
  refine ⟨σ, ?_⟩
  simp only [State.exchangeContent?, Option.bind_eq_bind, same, ← extended cell live, built]
  exact bind_renameOutcome fun item after => by simp

private theorem Sound.exists_sharedStep?_rename (sound : state.Sound typing []) (ρ : Renaming)
    (first second : Allocator) (payload : Ty) (live : cell ∈ state.store.addresses) (op : SharedOp) :
    ∃ σ, (state.rename ρ).sharedStep? second payload (ρ cell) op =
      renameOutcome σ (state.sharedStep? first payload cell op) := by
  cases op with
  | get target =>
      have copied := state.copyOut_rename target payload (.grant (state.store.content cell)) (ρ := ρ)
      refine ⟨ρ, ?_⟩
      simp only [State.sharedStep?, store_rename, Store.content_rename]
      exact congrArg some copied
  | replace literal target =>
      exact sound.exists_exchangeContent?_rename ρ first second payload live literal target
  | update literal target =>
      exact sound.exists_exchangeContent?_rename ρ first second payload live literal target
  | write literal =>
      obtain ⟨σ, extended, same, built⟩ := sound.exists_build_rename ρ first second literal payload
      refine ⟨σ, ?_⟩
      simp only [State.sharedStep?, Option.bind_eq_bind, same, ← extended cell live, built]
      exact bind_renameOutcome fun item after => by simp
  | same other =>
      refine ⟨ρ, ?_⟩
      simp only [State.sharedStep?, register?_rename]
      rcases state.register? other with _ | ⟨type, payload | value⟩
      · rfl
      · cases payload with
        | shared otherCell =>
            simp only [Option.map_some, Register.rename, Item.rename, Payload.rename,
              ρ.injective.beq_eq]
            split <;> rfl
        | _ => rfl
      · rfl
  | holders => exact ⟨ρ, by simp [State.sharedStep?]⟩

private theorem Sound.exists_exchangeItem?_rename (sound : state.Sound typing []) (ρ : Renaming)
    (first second : Allocator) (payload : Ty) (live : buffer ∈ state.store.addresses) (index : Nat)
    (literal : Literal) (target : Option String) :
    ∃ σ, (state.rename ρ).exchangeItem? second payload (ρ buffer) index literal target =
      renameOutcome σ (state.exchangeItem? first payload buffer index literal target) := by
  obtain ⟨σ, extended, same, built⟩ := sound.exists_build_rename ρ first second literal payload
  refine ⟨σ, ?_⟩
  simp only [State.exchangeItem?, Option.bind_eq_bind, same, ← extended buffer live, built]
  refine bind_renameOutcome fun item after => ?_
  simp only [Store.exchange_rename]
  obtain ⟨written, outcome, events⟩ := after.exchange buffer index item
  cases outcome with
  | error error => rfl
  | ok previous =>
      have produced := (State.mk written state.registers).produce_rename ⟨payload, previous⟩ target
        (ρ := σ)
      exact congrArg (fun made : State × Report => some (made.1, { made.2 with events })) produced

private theorem Sound.exists_sequenceStep?_rename (sound : state.Sound typing []) (ρ : Renaming)
    (first second : Allocator) (payload : Ty) (live : buffer ∈ state.store.addresses)
    (op : SequenceOp) :
    ∃ σ, (state.rename ρ).sequenceStep? second payload (ρ buffer) op =
      renameOutcome σ (state.sequenceStep? first payload buffer op) := by
  cases op with
  | length => exact ⟨ρ, by simp [State.sequenceStep?]⟩
  | get index target =>
      refine ⟨ρ, ?_⟩
      simp only [State.sequenceStep?, store_rename, Store.itemAt_rename, copyOut_rename]
      rfl
  | set index literal target =>
      exact sound.exists_exchangeItem?_rename ρ first second payload live index literal target
  | update index literal target =>
      exact sound.exists_exchangeItem?_rename ρ first second payload live index literal target
  | push literal =>
      obtain ⟨σ, extended, same, built⟩ := sound.exists_build_rename ρ first second literal payload
      refine ⟨σ, ?_⟩
      simp only [State.sequenceStep?, Option.bind_eq_bind, same, ← extended buffer live, built]
      refine bind_renameOutcome fun item after => ?_
      have pushed := after.write_rename buffer (.buffer (after.items buffer ++ [item])) (ρ := σ)
      simp only [Block.rename, List.map_append, List.map_cons, List.map_nil] at pushed
      simp [Sequence.push, pushed]
  | pop target =>
      refine ⟨ρ, ?_⟩
      simp only [State.sequenceStep?, Sequence.pop, store_rename, Store.items_rename,
        List.getLast?_map]
      cases (state.store.items buffer).getLast? with
      | none => rfl
      | some item =>
          have popped := state.store.write_rename buffer
            (.buffer (state.store.items buffer).dropLast) (ρ := ρ)
          simp only [Block.rename, List.map_dropLast] at popped
          simp [popped]
  | toList => exact ⟨ρ, by simp [State.sequenceStep?, Function.comp_def]⟩
  | same other =>
      refine ⟨ρ, ?_⟩
      simp only [State.sequenceStep?, register?_rename]
      rcases state.register? other with _ | ⟨type, payload | value⟩
      · rfl
      · cases payload with
        | sequence otherBuffer =>
            simp only [Option.map_some, Register.rename, Item.rename, Payload.rename,
              ρ.injective.beq_eq]
            split <;> rfl
        | _ => rfl
      · rfl
  | holders => exact ⟨ρ, by simp [State.sequenceStep?]⟩

private theorem profileReport_rename (state : State) (payload : Payload) :
    (state.rename ρ).profileReport (payload.rename ρ) = state.profileReport payload := by
  have profile := Profile.ofPayload_rename state.store payload (ρ := ρ)
  simp only [profileReport, store_rename, profile]
  cases payload with
  | sequence buffer => simp only [Payload.rename, Store.itemAt_rename, Logged.map]
  | _ => rfl

private theorem Sound.exists_step?_rename (sound : state.Sound typing []) (ρ : Renaming)
    (first second : Allocator) (op : Op) :
    ∃ σ, (state.rename ρ).step? second op = renameOutcome σ (state.step? first op) := by
  cases op with
  | create target type literal =>
      obtain ⟨σ, _, same, built⟩ := sound.exists_build_rename ρ first second literal type
      refine ⟨σ, ?_⟩
      simp only [State.step?, Option.bind_eq_bind, same, built]
      exact bind_renameOutcome fun item after => by simp
  | clone source target =>
      refine ⟨ρ, ?_⟩
      simp only [State.step?, register?_rename]
      cases state.register? source with
      | none => rfl
      | some register =>
          have produced := (state.retain register.item).produce_rename register (some target)
            (ρ := ρ)
          rw [← retain_rename] at produced
          exact congrArg some produced
  | drop source =>
      refine ⟨ρ, ?_⟩
      simp only [State.step?, register?_rename, remove_rename]
      cases state.register? source <;> rfl
  | compare left right =>
      refine ⟨ρ, ?_⟩
      simp only [State.step?, value?_rename]
      cases state.value? left with
      | none => rfl
      | some a =>
          cases state.value? right with
          | none => rfl
          | some b => simp
  | profile source =>
      refine ⟨ρ, ?_⟩
      simp only [State.step?, register?_rename]
      rcases state.register? source with _ | ⟨type, payload | value⟩
      · rfl
      · exact congrArg (fun report => some (state.rename ρ, report))
          (state.profileReport_rename payload)
      · rfl
  | value source op =>
      simp only [State.step?, Option.bind_eq_bind, value?_rename]
      cases named : state.value? source with
      | none => exact ⟨ρ, rfl⟩
      | some found =>
          obtain ⟨type, kinds, value⟩ := found
          have live := sound.live_of_register? (value?_inv named).1
          exact sound.exists_valueStep?_rename ρ first second source type kinds live op
  | shared source op =>
      simp only [State.step?, register?_rename]
      cases named : state.register? source with
      | none => exact ⟨ρ, rfl⟩
      | some register =>
          have live := sound.live_of_register? named
          rcases register with ⟨(_ | _ | _ | payload | _) | _ | _, (_ | _ | _ | cell | _) | _⟩
          case shared.some.kind.shared.plain.shared =>
            exact sound.exists_sharedStep?_rename ρ first second payload
              (live cell List.mem_cons_self) op
          all_goals exact ⟨ρ, rfl⟩
  | sequence source op =>
      simp only [State.step?, register?_rename]
      cases named : state.register? source with
      | none => exact ⟨ρ, rfl⟩
      | some register =>
          have live := sound.live_of_register? named
          rcases register with ⟨(_ | _ | _ | _ | payload) | _ | _, (_ | _ | _ | _ | buffer) | _⟩
          case sequence.some.kind.sequence.plain.sequence =>
            exact sound.exists_sequenceStep?_rename ρ first second payload
              (live buffer List.mem_cons_self) op
          all_goals exact ⟨ρ, rfl⟩

private theorem Sound.exists_step_rename (sound : state.Sound typing []) (ρ : Renaming)
    (first second : Allocator) (op : Op) :
    ∃ σ, (state.rename ρ).step second op = (state.step first op).map (rename σ) id := by
  obtain ⟨σ, stepped⟩ := sound.exists_step?_rename ρ first second op
  simp only [State.step, stepped]
  cases state.step? first op with
  | none => exact ⟨ρ, rfl⟩
  | some outcome => exact ⟨σ, rfl⟩

/-! ## Runs -/

private theorem Sound.exists_runWith_rename (sound : state.Sound typing []) (ρ : Renaming)
    {first second : List (Allocator × Op)} (sameOps : first.map Prod.snd = second.map Prod.snd) :
    ∃ σ, (state.rename ρ).runWith second = (state.runWith first).map (State.rename σ) id := by
  induction first generalizing state typing ρ second with
  | nil =>
      cases List.map_eq_nil_iff.mp sameOps.symm
      exact ⟨ρ, rfl⟩
  | cons step first ih =>
      obtain ⟨⟨allocator, op⟩, others, rfl, rfl, sameOthers⟩ := List.map_eq_cons_iff.mp sameOps.symm
      -- The first step may lead to another renaming, under which the remaining ones are compared.
      obtain ⟨σ, stepped⟩ := sound.exists_step_rename ρ step.1 allocator step.2
      obtain ⟨extended, next⟩ := sound.step step.1 step.2
      obtain ⟨τ, ran⟩ := ih next σ sameOthers.symm
      refine ⟨τ, ?_⟩
      simp only [State.runWith, stepped, Prod.map, ran, id]

/-- Whatever names the addresses of a state get, and whatever addresses are picked for new blocks on
the way, the same operations have the same reports and end in the same state up to a renaming. -/
theorem renamed_runs_agree (reachable : state.Reachable) (ρ : Renaming)
    {first second : List (Allocator × Op)} (sameOps : first.map Prod.snd = second.map Prod.snd) :
    ((state.rename ρ).runWith second).2 = (state.runWith first).2 ∧
    ∃ σ : Renaming, ((state.rename ρ).runWith second).1 = (state.runWith first).1.rename σ := by
  obtain ⟨typing, sound⟩ := reachable.sound
  obtain ⟨σ, ran⟩ := sound.exists_runWith_rename ρ sameOps
  rw [ran]
  exact ⟨rfl, σ, rfl⟩

/-- Two cells with the same content. -/
def twinsNamed : State where
  store := ⟨[⟨2, 1, .cell (.plain (.text "a"))⟩, ⟨1, 1, .cell (.plain (.text "a"))⟩]⟩
  registers := [("y", ⟨.value [.shared (.kind .text)], .value (.active ⟨0, .shared 2⟩)⟩),
    ("x", ⟨.value [.shared (.kind .text)], .value (.active ⟨0, .shared 1⟩)⟩)]

private theorem twinsNamed_reachable : twinsNamed.Reachable := by
  have one := Reachable.initial.create .ascending "x" (.value [.shared (.kind .text)])
    (.active 0 (.shared (.text "a"))) rfl rfl
  exact one.create .ascending "y" (.value [.shared (.kind .text)]) (.active 0 (.shared (.text "a")))
    rfl rfl

/-- The renaming that moves every address up. -/
def movedBy (distance : Nat) : Renaming := ⟨(· + distance), fun _ _ => Nat.add_right_cancel⟩

/-- The allocator that avoids some more addresses than the live ones. -/
def avoiding (reserved : List Address) (allocator : Allocator) : Allocator where
  pick live := allocator.pick (reserved ++ live)
  fresh _ member := allocator.fresh _ (List.mem_append_right reserved member)

def renewSecond : List Op :=
  [.drop "y", .create "y" (.value [.shared (.kind .text)]) (.active 0 (.shared (.text "b"))),
    .compare "x" "y", .value "y" .summary]

/-- The address of the dropped cell is used again in one run and not in the other. -/
theorem twinsNamed_renewed :
    twinsNamed.Reachable ∧
    (twinsNamed.runWith (renewSecond.map (.ascending, ·))).1.store.addresses = [2, 1] ∧
    ((twinsNamed.rename (movedBy 10)).runWith
      (renewSecond.map (avoiding [20] .ascending, ·))).1.store.addresses = [21, 11] ∧
    ((twinsNamed.rename (movedBy 10)).runWith
      (renewSecond.map (avoiding [20] .ascending, ·))).2 =
        (twinsNamed.runWith (renewSecond.map (.ascending, ·))).2 := by
  have sameOps : (renewSecond.map (Allocator.ascending, ·)).map Prod.snd =
      (renewSecond.map (avoiding [20] .ascending, ·)).map Prod.snd := rfl
  refine ⟨twinsNamed_reachable, by decide +kernel, by decide +kernel, ?_⟩
  exact (renamed_runs_agree twinsNamed_reachable (movedBy 10) sameOps).1

end State

end LooseValue
