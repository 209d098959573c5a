import LooseValue.Proofs.Machine.Holders
import LooseValue.Proofs.Machine.Writes
import LooseValue.Proofs.Store.Growth

/-!
# Refused steps

An argument is built before the operation starts, so that by the time an access is refused there may
be new blocks and new handles to old ones. A refused access drops its argument, and this takes back
exactly what building it has done: the state afterwards is the state before, whatever the argument
shares with it.
-/

set_option autoImplicit false

namespace LooseValue

variable {allocator : Allocator} {registers : List (String × Register)}

/-! ## Building grows the store -/

/-- A store that grew, with handles to what is in it. -/
structure Store.GrownTo (store : Store) (handles : List Address) (after : Store) : Prop where
  grown : store.Grown after
  live : ∀ handle ∈ handles, handle ∈ after.addresses

theorem Store.GrownTo.of_scalar (store : Store) : store.GrownTo [] store where
  grown := .refl
  live := fun _ member => (List.not_mem_nil member).elim

theorem Store.GrownTo.allocate {store after : Store} (block : Block)
    (made : store.GrownTo block.handles after) (allocator : Allocator) :
    store.GrownTo [(after.allocate allocator block).1] (after.allocate allocator block).2 where
  grown := .allocate allocator made.grown made.live
  live := by
    intro handle member
    rw [List.mem_singleton.mp member]
    exact List.mem_cons_self

mutual

theorem Ty.grownTo_makeDefault : ∀ (type : Ty) (store : Store),
    store.GrownTo (type.makeDefault allocator store).1.handles (type.makeDefault allocator store).2
  | .kind kind, store => Kind.grownTo_makeDefault kind store
  | .value _, store => .of_scalar store
  | .dynamic, store => .of_scalar store

theorem Kind.grownTo_makeDefault : ∀ (kind : Kind) (store : Store),
    store.GrownTo (kind.makeDefault allocator store).1.handles (kind.makeDefault allocator store).2
  | .boolean, store => .of_scalar store
  | .number, store => .of_scalar store
  | .text, store => .of_scalar store
  | .shared payload, store =>
      have content := Ty.grownTo_makeDefault payload store
      Store.GrownTo.allocate (.cell _) content allocator
  | .sequence _, store =>
      Store.GrownTo.allocate (.buffer []) (.of_scalar store) allocator

end

namespace Literal

mutual

/-- Named items lead to live blocks, so a copy of one is made of what is there already. -/
theorem grownTo_build : ∀ (literal : Literal) {type : Ty} {store after : Store} {item : Item},
    (∀ named ∈ registers, ∀ handle ∈ named.2.item.handles, handle ∈ store.addresses) →
    literal.build allocator registers type store = some (item, after) →
    store.GrownTo item.handles after
  | .boolean _, _, store, _, _, _, built => by
      cases makes_of_build built
      exact .of_scalar store
  | .number _, _, store, _, _, _, built => by
      cases makes_of_build built
      exact .of_scalar store
  | .text _, _, store, _, _, _, built => by
      cases makes_of_build built
      exact .of_scalar store
  | .shared referent, _, _, _, _, live, built => by
      cases makes_of_build built with
      | shared first =>
          have content := grownTo_build referent live first
          exact Store.GrownTo.allocate (.cell _) content allocator
  | .sequence literals, _, _, _, _, live, built => by
      cases makes_of_build built with
      | sequence first =>
          have items := grownTo_buildAll literals live first
          exact Store.GrownTo.allocate (.buffer _) items allocator
  | .undefined, _, store, _, _, _, built => by
      cases makes_of_build built
      exact .of_scalar store
  | .active _ literal, _, _, _, _, live, built => by
      cases makes_of_build built with
      | active _ _ first =>
          have payload := grownTo_build literal live first
          exact payload
  | .default, type, store, _, _, _, built => by
      cases makes_of_build built
      exact type.grownTo_makeDefault store
  | .copy _, _, store, _, _, live, built => by
      cases makes_of_build built with
      | copy found =>
          refine ⟨.retain _ .refl, ?_⟩
          intro handle inside
          rw [Store.addresses_retain]
          exact live _ (mem_of_lookup found) handle inside

theorem grownTo_buildAll : ∀ (literals : List Literal) {type : Ty} {store after : Store}
    {items : List Item},
    (∀ named ∈ registers, ∀ handle ∈ named.2.item.handles, handle ∈ store.addresses) →
    buildAll allocator registers literals type store = some (items, after) →
    store.GrownTo (items.flatMap Item.handles) after
  | [], _, store, _, _, _, built => by
      cases built
      exact .of_scalar store
  | literal :: literals, _, _, _, _, live, built => by
      simp only [buildAll] at built
      split at built
      · cases built
      · next item middle first =>
          split at built
          · cases built
          · next rest last others =>
              cases built
              have one := grownTo_build literal live first
              have more := grownTo_buildAll literals (fun named member handle inside =>
                one.grown.mem_addresses (live named member handle inside)) others
              refine ⟨one.grown.trans more.grown, ?_⟩
              intro handle inside
              rw [List.flatMap_cons] at inside
              rcases List.mem_append.mp inside with own | later
              · exact more.grown.mem_addresses (one.live handle own)
              · exact more.live handle later

end

end Literal

namespace State

variable {typing : StoreTyping} {state next : State} {op : Op} {literal : Literal}
  {type : Ty} {item : Item} {store : Store} {report : Report} {failure : Failure}

/-- An argument that is built and dropped leaves no trace. -/
theorem Sound.release_build (sound : state.Sound typing [])
    (built : literal.build allocator state.registers type state.store = some (item, store)) :
    store.release item.handles = state.store := by
  obtain ⟨_, _, kept, _⟩ := sound.build built
  have held := kept.store.counted
  rw [List.append_assoc] at held
  refine Store.Counted.release_grown sound.counted (literal.grownTo_build ?_ built).grown held
  intro named member handle inside
  exact sound.counted.mem_addresses (List.mem_flatMap.mpr ⟨named, member, inside⟩)

/-! ## Refusals -/

private theorem Sound.outcome_of_error (sound : state.Sound typing [])
    (outcome : state.Outcome allocator op next report) (failed : report.outcome = .error failure) :
    next = state := by
  cases outcome with
  | unfit | answered | profiled | exhausted | readRefused => rfl
  | delivered | dropped | cleared | replaced | overwriteMissed | elementWritten | contentWritten
  | pushed => cases failed
  | elementRefused _ _ built | itemRefused _ built => rw [State.release, sound.release_build built]

theorem Sound.step_of_error (sound : state.Sound typing [])
    (failed : (state.step allocator op).2.outcome = .error failure) :
    (state.step allocator op).1 = state :=
  sound.outcome_of_error (outcome_step allocator state op) failed

/-- A write that is refused discards its argument. -/
theorem Outcome.discards {error : AccessError} (outcome : state.Outcome allocator op next report)
    (isWrite : op.isWrite = true) (refused : report.outcome = .error (.access error)) :
    ∃ item middle, state.Discards allocator op item middle := by
  cases outcome with
  | unfit other =>
      cases refused
      exact absurd rfl (other error)
  | readRefused isRead => exact absurd isWrite (by simp [isRead])
  | answered | profiled | exhausted | delivered | dropped | cleared | replaced | overwriteMissed
  | elementWritten | contentWritten | pushed => cases refused
  | elementRefused named resolved built rejected =>
      exact ⟨_, _, .elementRefused named resolved built (congrArg (·.2.outcome) rejected)⟩
  | itemRefused named built beyond exchanges =>
      exact ⟨_, _, .itemRefused named built beyond exchanges⟩

/-- An operation that fails leaves the state as it was before its argument was built, with every
name, content and count; and where a write was refused, its argument had been built and gave up the
handles that it had taken. -/
theorem failed_step_restores (reachable : state.Reachable) (allocator : Allocator) :
    (∀ op failure, (state.step allocator op).2.outcome = .error failure →
      (state.step allocator op).1 = state) ∧
    (∀ op error, op.isWrite = true →
      (state.step allocator op).2.outcome = .error (.access error) →
      ∃ item middle, state.Discards allocator op item middle ∧
        middle.GivesUp item.handles state.store) := by
  obtain ⟨typing, sound⟩ := reachable.sound
  refine ⟨fun _ _ => sound.step_of_error, ?_⟩
  intro op error isWrite refused
  obtain ⟨item, middle, discards⟩ := (outcome_step allocator state op).discards isWrite refused
  obtain ⟨roots, counted, released⟩ := discards.released sound
  refine ⟨item, middle, discards, ?_⟩
  rw [← sound.step_of_error refused, released]
  exact counted.givesUp

/-- A dynamic value that holds a sequence of one number. -/
def oneItemNamed : State where
  store := ⟨[⟨1, 1, .buffer [.value (.active ⟨1, .number (.zero false)⟩)]⟩]⟩
  registers := [("x", ⟨.dynamic, .value (.active ⟨4, .sequence 1⟩)⟩)]

private theorem oneItemNamed_reachable : oneItemNamed.Reachable :=
  Reachable.initial.create .ascending "x" .dynamic
    (.active 4 (.sequence [.active 1 (.number (.zero false))])) rfl rfl

/-- Write a new cell with a copy of the value itself beyond the end of its own sequence. -/
def writeBeyondEnd : Op := .value "x" (.setElement 3 (.active 3 (.shared (.copy "x"))))

/-- The new cell and the second handle to the sequence are gone with the refusal. -/
theorem oneItemNamed_refuses :
    oneItemNamed.Reachable ∧
    (oneItemNamed.step .ascending writeBeyondEnd).2.outcome =
      .error (.access (.indexOutOfBounds 3 1)) ∧
    (oneItemNamed.step .ascending writeBeyondEnd).1 = oneItemNamed ∧
    ∃ item middle, oneItemNamed.Discards .ascending writeBeyondEnd item middle ∧
      middle.GivesUp item.handles oneItemNamed.store := by
  have refused : (oneItemNamed.step .ascending writeBeyondEnd).2.outcome =
      .error (.access (.indexOutOfBounds 3 1)) := rfl
  obtain ⟨restores, discards⟩ := failed_step_restores oneItemNamed_reachable .ascending
  exact ⟨oneItemNamed_reachable, refused, restores _ _ refused, discards _ _ rfl refused⟩

end State

end LooseValue
