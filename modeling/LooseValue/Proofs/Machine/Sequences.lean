import LooseValue.Machine.Sequences
import LooseValue.Proofs.Machine.Counting
import LooseValue.Proofs.Store.Frame

/-!
# Runs on sequences of plain elements

Every buffer has as many holders as there are names for it, and a buffer that has none is gone. So a
name always leads to a live buffer, and the elements of a live buffer change by a write through one
of its names and by nothing else.
-/

set_option autoImplicit false

namespace LooseValue

namespace Sequences

variable {α : Type} {default : α} {allocator : Allocator} {state : Sequences α} {name : String}
  {buffer : Address} {vector : List α} {op : Op α}

/-! ## Counting -/

def roots (state : Sequences α) : List Address := state.names.flatMap fun named => [named.2]

def Counted (state : Sequences α) : Prop := state.store.Counted state.roots

private theorem mem_roots_of_buffer? (named : state.buffer? name = some buffer) :
    buffer ∈ state.roots :=
  List.mem_flatMap.mpr ⟨_, mem_of_lookup named, List.mem_cons_self⟩

theorem roots_perm (state : Sequences α) (name : String) :
    state.roots.Perm ((state.buffer? name).toList ++ (state.remove name).roots) := by
  have divided := handles_perm_lookup state.names name fun buffer => [buffer]
  rwa [List.flatMap_singleton'] at divided

/-- A buffer whose elements are known. -/
def Holds (state : Sequences α) (buffer : Address) (vector : List α) : Prop :=
  state.store.block? buffer = some ⟨vector⟩

theorem Holds.elements (holds : state.Holds buffer vector) : state.elements buffer = vector := by
  obtain ⟨entry, found, same⟩ := Option.map_eq_some_iff.mp holds
  rw [Sequences.elements, found]
  exact congrArg Buffer.elements same

namespace Counted

theorem initial : (initial : Sequences α).Counted where
  distinct := List.nodup_nil
  holders := fun _ member => (List.not_mem_nil member).elim
  live := fun _ => Iff.rfl

theorem holds (counted : state.Counted) (named : state.buffer? name = some buffer) :
    state.Holds buffer (state.elements buffer) := by
  obtain ⟨⟨vector⟩, found⟩ :=
    Store.exists_block?_of_mem (counted.mem_addresses (mem_roots_of_buffer? named))
  have holds : state.Holds buffer vector := found
  rwa [holds.elements]

theorem remove (counted : state.Counted) (name : String) : (state.remove name).Counted :=
  Store.Counted.release (counted.perm (state.roots_perm name))

/-- A handle at hand that is given a name is counted there. -/
theorem put (state : Sequences α) (counted : state.store.Counted (buffer :: state.roots))
    (name : String) : (state.put name buffer).Counted := by
  have divided := (state.roots_perm name).cons buffer
  exact Store.Counted.release (counted.perm (divided.trans List.perm_middle.symm))

theorem allocate (counted : state.Counted) (allocator : Allocator) (name : String)
    (elements : List α) : (state.allocate allocator name elements).Counted := by
  refine put { state with store := (state.store.allocate allocator ⟨elements⟩).2 } ?_ name
  exact Store.Counted.allocate counted allocator

theorem share (counted : state.Counted) (live : buffer ∈ state.store.addresses) (name : String) :
    (state.share name buffer).Counted := by
  have retained : (state.store.retain [buffer]).Counted ([buffer] ++ state.roots) := by
    refine Store.Counted.retain counted ?_
    intro address member
    rwa [List.mem_singleton.mp member]
  exact put { state with store := state.store.retain [buffer] } retained name

theorem overwrite (counted : state.Counted) (holds : state.Holds buffer vector)
    (elements : List α) : (state.overwrite buffer elements).Counted := by
  have before : state.store.Counted ([] ++ state.roots) := counted
  have written : (state.store.write buffer ⟨elements⟩).Counted ([] ++ state.roots) :=
    before.write holds .nil
  exact written

end Counted

/-! ## Steps -/

/-- The uses that change the elements of a buffer. -/
def Use.isWrite : Use α → Bool
  | .set .. | .update .. | .push _ | .pop => true
  | .length | .get _ | .toList | .holders => false

/-- A use overwrites the elements of its buffer or leaves all as it is. -/
theorem useStep_cases (state : Sequences α) (buffer : Address) (use : Use α) :
    (∃ elements, use.isWrite = true ∧
      (state.useStep buffer use).1 = state.overwrite buffer elements) ∨
      (state.useStep buffer use).1 = state := by
  cases use with
  | set | update | push | pop => exact .inl ⟨_, rfl, rfl⟩
  | length | get | toList | holders => exact .inr rfl

/-- The name and the elements of a buffer that an operation creates. -/
def Op.created? (default : α) : Op α → Option (String × List α)
  | .create target elements => some (target, elements)
  | .createSized target length => some (target, List.replicate length default)
  | _ => none

/-- What an operation does to the state, whatever it answers. -/
inductive Outcome (default : α) (allocator : Allocator) (state : Sequences α) :
    Op α → Sequences α → Prop where
  | unchanged {op : Op α} : Outcome default allocator state op state
  | created {op : Op α} {target : String} {elements : List α} :
      op.created? default = some (target, elements) →
      Outcome default allocator state op (state.allocate allocator target elements)
  | shared {source target : String} {buffer : Address} : state.buffer? source = some buffer →
      Outcome default allocator state (.clone source target) (state.share target buffer)
  | dropped {source : String} : Outcome default allocator state (.drop source) (state.remove source)
  | written {source : String} {use : Use α} {buffer : Address} (elements : List α) :
      use.isWrite = true → state.buffer? source = some buffer →
      Outcome default allocator state (.use source use) (state.overwrite buffer elements)

theorem outcome_step (default : α) (allocator : Allocator) (state : Sequences α) (op : Op α) :
    state.Outcome default allocator op (state.step default allocator op).1 := by
  cases op with
  | create target elements => exact .created rfl
  | createSized target length => exact .created rfl
  | clone source target =>
      cases named : state.buffer? source with
      | none => simpa [step, step?, named] using Outcome.unchanged
      | some buffer => simpa [step, step?, named] using Outcome.shared named
  | drop source =>
      cases named : state.buffer? source with
      | none => simpa [step, step?, named] using Outcome.unchanged
      | some buffer => simpa [step, step?, named] using Outcome.dropped
  | same left right =>
      cases namedLeft : state.buffer? left with
      | none => simpa [step, step?, namedLeft] using Outcome.unchanged
      | some one =>
          cases namedRight : state.buffer? right with
          | none => simpa [step, step?, namedLeft, namedRight] using Outcome.unchanged
          | some other => simpa [step, step?, namedLeft, namedRight] using Outcome.unchanged
  | use source use =>
      cases named : state.buffer? source with
      | none => simpa [step, step?, named] using Outcome.unchanged
      | some buffer =>
          rcases state.useStep_cases buffer use with ⟨elements, isWrite, used⟩ | used
          · simpa [step, step?, named, used] using Outcome.written elements isWrite named
          · simpa [step, step?, named, used] using Outcome.unchanged

theorem Counted.outcome {next : Sequences α} (counted : state.Counted)
    (outcome : state.Outcome default allocator op next) : next.Counted := by
  cases outcome with
  | unchanged => exact counted
  | created => exact counted.allocate allocator _ _
  | shared named => exact counted.share (counted.mem_addresses (mem_roots_of_buffer? named)) _
  | dropped => exact counted.remove _
  | written elements _ named => exact counted.overwrite (counted.holds named) elements

theorem Counted.step (counted : state.Counted) (default : α) (allocator : Allocator) (op : Op α) :
    (state.step default allocator op).1.Counted :=
  counted.outcome (outcome_step default allocator state op)

/-- The states that runs lead to, whatever addresses the new buffers get. -/
inductive Reachable (default : α) : Sequences α → Prop where
  | initial : Reachable default initial
  | step {state : Sequences α} (allocator : Allocator) (op : Op α) : Reachable default state →
      Reachable default (state.step default allocator op).1

theorem Reachable.counted (reachable : Reachable default state) : state.Counted := by
  induction reachable with
  | initial => exact .initial
  | step allocator op _ ih => exact ih.step default allocator op

/-! ## Elements of a buffer -/

/-- The operation writes the buffer neither by itself nor by dropping the last handle to it. -/
def LeavesAlone (default : α) (allocator : Allocator) (state : Sequences α) (op : Op α)
    (buffer : Address) : Prop :=
  buffer ∈ (state.step default allocator op).1.store.addresses ∧
  ∀ name use, op = .use name use → use.isWrite = true → state.buffer? name ≠ some buffer

private theorem Counted.nodup_allocate (counted : state.Counted) (allocator : Allocator)
    (elements : List α) : (state.store.allocate allocator ⟨elements⟩).2.addresses.Nodup :=
  List.nodup_cons.mpr ⟨allocator.fresh state.store.addresses, counted.distinct⟩

/-- A buffer that is not written and stays live keeps its elements. -/
theorem Counted.holds_outcome {next : Sequences α} (counted : state.Counted)
    (outcome : state.Outcome default allocator op next)
    (unwritten : ∀ name use, op = .use name use → use.isWrite = true →
      state.buffer? name ≠ some buffer)
    (live : buffer ∈ next.store.addresses) (holds : state.Holds buffer vector) :
    next.Holds buffer vector := by
  obtain ⟨block, survives⟩ := Store.exists_block?_of_mem live
  have same : block = ⟨vector⟩ := by
    cases outcome with
    | unchanged => exact Option.some.inj (survives.symm.trans holds)
    | @created _ target elements =>
        exact (state.store.keeps_allocate allocator ⟨elements⟩).frame_release
          (counted.nodup_allocate allocator elements) _ buffer (fun changed => changed) _ _ holds
          survives
    | @shared _ _ shared =>
        have distinct : (state.store.retain [shared]).addresses.Nodup := by
          rw [Store.addresses_retain]
          exact counted.distinct
        exact (state.store.keeps_retain [shared]).frame_release distinct _
          buffer (fun changed => changed) _ _ holds survives
    | dropped =>
        exact (Store.Keeps.refl state.store).frame_release counted.distinct _
          buffer (fun changed => changed) _ _ holds survives
    | @written source use other elements isWrite named =>
        have different : buffer ≠ other := by
          rintro rfl
          exact unwritten source use rfl isWrite named
        have kept : state.store.block? buffer = some block := by
          rwa [← Store.block?_write_of_ne different]
        exact Option.some.inj (kept.symm.trans holds)
  rw [Holds, survives, same]

theorem Counted.holds_aside (counted : state.Counted)
    (alone : state.LeavesAlone default allocator op buffer) (holds : state.Holds buffer vector) :
    (state.step default allocator op).1.Holds buffer vector :=
  counted.holds_outcome (outcome_step default allocator state op) alone.2 alone.1 holds

theorem Counted.holds_allocate (counted : state.Counted) (allocator : Allocator) (name : String)
    (elements : List α) :
    let next := state.allocate allocator name elements
    ∃ buffer, next.buffer? name = some buffer ∧ next.Holds buffer elements := by
  intro next
  have named : next.buffer? name = some (state.store.allocate allocator ⟨elements⟩).1 :=
    List.lookup_cons_self
  refine ⟨_, named, ?_⟩
  obtain ⟨block, survives⟩ := Store.exists_block?_of_mem
    ((counted.allocate allocator name elements).mem_addresses (mem_roots_of_buffer? named))
  have kept := Store.block?_of_block?_release (counted.nodup_allocate allocator elements) survives
  rw [Store.block?_allocate_self] at kept
  rw [Holds, survives, kept]

theorem Holds.overwrite (holds : state.Holds buffer vector) (elements : List α) :
    (state.overwrite buffer elements).Holds buffer elements :=
  Store.block?_write_self holds _

theorem step_use (named : state.buffer? name = some buffer) (use : Use α) :
    state.step default allocator (.use name use) =
      ((state.useStep buffer use).1, some (state.useStep buffer use).2) := by
  simp [step, step?, named]

end Sequences

end LooseValue
