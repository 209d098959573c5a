import LooseValue.Proofs.Machine.Steps

/-!
# Events of refused accesses

A refused access emits one event for debugging, with the error that it returns, and a granted one emits
none. This is shown of each access to a store, whatever the list of kinds and wherever in it the active
position is; then of each operation, which may add events for tracing but none for debugging; and from
there of a run, whose events for debugging are the errors that it returned, one after the other.
-/

set_option autoImplicit false

namespace LooseValue

def Event.isDebug (event : Event) : Bool := event.level = .debug

/-! ## Accesses -/

namespace Logged

variable {α β : Type} {access : Logged α}

/-- The events for debugging that an outcome calls for. -/
def due : Except AccessError α → List Event
  | .ok _ => []
  | .error error => [.refused error]

def Honest (access : Logged α) : Prop := access.events.filter Event.isDebug = due access.outcome

private theorem honest_grant (result : α) : (grant result).Honest := rfl

private theorem honest_refuse (error : AccessError) : (refuse error : Logged α).Honest := rfl

private theorem honest_of_cases
    (cases : (∃ result, access = grant result) ∨ ∃ error, access = refuse error) :
    access.Honest := by
  rcases cases with ⟨result, rfl⟩ | ⟨error, rfl⟩
  · exact honest_grant result
  · exact honest_refuse error

end Logged

namespace Store

open Logged

variable (store : Store)

private theorem honest_itemAt (buffer : Address) (index : Nat) :
    (store.itemAt buffer index).Honest := by
  rcases store.itemAt_cases buffer index with ⟨item, _, granted⟩ | refused
  · exact honest_of_cases (.inl ⟨item, granted⟩)
  · exact honest_of_cases (.inr refused)

private theorem honest_exchange (buffer : Address) (index : Nat) (item : Item) :
    (store.exchange buffer index item).2.Honest := by
  cases stored : (store.items buffer)[index]? with
  | some previous =>
      rw [exchange_of_getElem? stored]
      exact honest_grant previous
  | none =>
      rw [exchange_of_le (List.getElem?_eq_none_iff.mp stored)]
      exact honest_refuse _

private theorem honest_referent (kinds : List Kind) (value : Value) :
    (store.referent kinds value).Honest :=
  honest_of_cases (store.referent_cases kinds value)

private theorem honest_element (kinds : List Kind) (index : Nat) (value : Value) :
    (store.element kinds index value).Honest :=
  honest_of_cases (store.element_cases kinds index value)

private theorem honest_setElement (kinds : List Kind) (index : Nat) (element : Item)
    (value : Value) :
    (store.setElement kinds index element value).2.Honest := by
  rcases store.setElement_cases kinds index element value with
    ⟨position, buffer, item, previous, rfl, projected, stored⟩ | ⟨error, refused⟩
  · rw [setElement_of_getElem? projected stored]
    exact honest_grant ()
  · rw [refused]
    exact honest_refuse error

end Store

/-! ## Operations -/

namespace Report

/-- The error of an access that the operation made. -/
def refusal? (report : Report) : Option AccessError :=
  match report.outcome with
  | .error (.access error) => some error
  | _ => none

def debugEvents (report : Report) : List Event := report.events.filter Event.isDebug

def Honest (report : Report) : Prop :=
  report.debugEvents = report.refusal?.toList.map Event.refused

private theorem honest_answer (answer : Answer) : (Report.answer answer).Honest := rfl

private theorem honest_of_quiet {events : List Event} (quiet : ∀ error, .refused error ∉ events)
    (answer : Answer) : Report.Honest ⟨.ok answer, events⟩ := by
  refine List.filter_eq_nil_iff.mpr ?_
  intro event member
  cases event with
  | replaced | cleared => simp [Event.isDebug, Event.level]
  | refused error => exact absurd member (quiet error)

end Report

/-- A profile of a sequence reads its first item by the way, and may be refused without failing. -/
def Op.isProfile : Op → Bool
  | .profile _ => true
  | _ => false

namespace State

open Report

variable {allocator : Allocator} {state next : State} {op : Op} {report : Report}

theorem Outcome.honest (outcome : state.Outcome allocator op next report)
    (access : op.isProfile = false) : report.Honest := by
  cases outcome with
  | @unfit _ failure notAccess =>
      cases failure with
      | access error => exact absurd rfl (notAccess error)
      | unresolved | malformed => rfl
  | profiled => cases access
  | answered | exhausted | delivered | dropped | overwriteMissed | elementWritten
  | contentWritten | pushed => exact honest_answer _
  | cleared _ quiet => exact honest_of_quiet quiet _
  | replaced _ _ _ _ quiet => exact honest_of_quiet quiet _
  | readRefused | elementRefused | itemRefused => rfl

private theorem honest_step (allocator : Allocator) (state : State)
    (access : op.isProfile = false) :
    (state.step allocator op).2.Honest :=
  (outcome_step allocator state op).honest access

private theorem runWith_debugEvents (state : State) {steps : List (Allocator × Op)}
    (accesses : ∀ step ∈ steps, step.2.isProfile = false) :
    (state.runWith steps).2.flatMap debugEvents =
      ((state.runWith steps).2.filterMap refusal?).map Event.refused := by
  induction steps generalizing state with
  | nil => rfl
  | cons step steps ih =>
      obtain ⟨allocator, op⟩ := step
      have first := honest_step allocator state (accesses _ List.mem_cons_self)
      have rest := ih (state.step allocator op).1 fun later member =>
        accesses later (List.mem_cons_of_mem _ member)
      rw [Honest] at first
      simp only [runWith, List.flatMap_cons, first, rest]
      cases refusal : (state.step allocator op).2.refusal? with
      | none => simp [refusal]
      | some error => simp [refusal]

end State

/-- Each access emits, for debugging, the error that it returns or nothing; so does each operation but
a profile; and the events for debugging of a run are its errors in their order. -/
theorem debug_events_are_errors :
    (∀ (store : Store) (kinds : List Kind) (value : Value) (buffer : Address) (index : Nat)
      (item : Item),
      (store.referent kinds value).Honest ∧ (store.element kinds index value).Honest ∧
      (store.setElement kinds index item value).2.Honest ∧ (store.itemAt buffer index).Honest ∧
      (store.exchange buffer index item).2.Honest) ∧
    (∀ (allocator : Allocator) (state : State) (op : Op), op.isProfile = false →
      (state.step allocator op).2.Honest) ∧
    ∀ (state : State) (steps : List (Allocator × Op)),
      (∀ step ∈ steps, step.2.isProfile = false) →
      (state.runWith steps).2.flatMap Report.debugEvents =
        ((state.runWith steps).2.filterMap Report.refusal?).map Event.refused := by
  refine ⟨?_, ?_, ?_⟩
  · intro store kinds value buffer index item
    exact ⟨store.honest_referent kinds value, store.honest_element kinds index value,
      store.honest_setElement kinds index item value, store.honest_itemAt buffer index,
      store.honest_exchange buffer index item⟩
  · intro allocator state op access
    exact State.honest_step allocator state access
  · intro state steps accesses
    exact state.runWith_debugEvents accesses

/-- A sequence of one number, in a list with a reference and a sequence of texts. -/
def rebuffedNamed : State where
  store := ⟨[⟨1, 1, .buffer [.plain (.number (.ofInt 5))]⟩]⟩
  registers :=
    [("v", ⟨.value [.shared (.kind .number), .sequence (.kind .number), .sequence (.kind .text)],
      .value (.active ⟨1, .sequence 1⟩)⟩)]

/-- One access of each sort that is refused, and a comparison among them. -/
def rebuffedOps : List Op :=
  [.value "v" (.element 3 none), .value "v" (.compare (.text "5")), .value "v" (.referent none),
    .value "v" (.setElement 7 (.active 1 (.text "a")))]

theorem rebuffedNamed_events :
    (rebuffedNamed.step .ascending (.value "v" (.element 3 none))).2.Honest ∧
    (rebuffedNamed.run .ascending rebuffedOps).2.flatMap Report.debugEvents =
      [.refused (.indexOutOfBounds 3 1), .refused (.invalidAccess "dereference" "sequence"),
        .refused (.elementMismatch 7 "sequence")] := by
  obtain ⟨_, steps, runs⟩ := debug_events_are_errors
  have errors : (rebuffedNamed.run .ascending rebuffedOps).2.filterMap Report.refusal? =
      [.indexOutOfBounds 3 1, .invalidAccess "dereference" "sequence",
        .elementMismatch 7 "sequence"] := rfl
  refine ⟨steps _ _ _ rfl, ?_⟩
  rw [← State.runWith_map] at errors ⊢
  rw [runs rebuffedNamed _ (by simp [rebuffedOps, Op.isProfile]), errors]
  rfl

end LooseValue
