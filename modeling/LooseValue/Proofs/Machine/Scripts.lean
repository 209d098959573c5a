import Mathlib.Data.List.Forall2
import LooseValue.Bulk
import LooseValue.Store

/-!
# Scripts for vectors

A script is a list of operations on a vector. It can be played on whatever has sequences in it: each
operation goes through some handle to the current buffer, which is the one that was created last, and
between the operations anything may be done that leaves this buffer alone. If every single operation
does to the buffer what it does to a vector, then the two agree after each step of every script.
-/

set_option autoImplicit false

namespace LooseValue

variable {α : Type}

/-- Whether the operation starts a vector anew. -/
def Bulk.Op.creates : Bulk.Op α → Bool
  | .create | .createSized _ => true
  | .push _ | .get _ | .set _ _ | .size => false

/-- What sequences live in: a machine with an operation for each operation of a vector. -/
structure Host (α : Type) where
  State : Type
  Op : Type
  Report : Type
  step : Allocator → State → Op → State × Report
  /-- The operation of a vector, through the handle of a name. -/
  op : String → Bulk.Op α → Op
  /-- The operation that lists the elements, through the handle of a name. -/
  toList : String → Op
  /-- The buffer that a name has a handle to. -/
  buffer? : State → String → Option Address
  /-- There is a buffer with these elements at the address. -/
  Holds : State → Address → List α → Prop
  /-- The operation writes the buffer neither by itself nor by dropping the last handle to it. -/
  LeavesAlone : Allocator → State → Op → Address → Prop
  /-- An operation is reported as it comes out on a vector. -/
  Matches : Except AccessError (Bulk.Answer α) → Report → Prop
  /-- The report is a list of these elements. -/
  Lists : List α → Report → Prop

namespace Host

variable {host : Host α}

/-- A step of a script: an operation of the vector, through the handle of a name, or an operation
beside it. Each step has an allocator of its own. -/
inductive Move (host : Host α) where
  | act (allocator : Allocator) (name : String) (op : Bulk.Op α)
  | aside (allocator : Allocator) (op : host.Op)

def Move.act? : host.Move → Option (Bulk.Op α)
  | .act _ _ op => some op
  | .aside _ _ => none

/-- The state after an operation of the script, its current buffer, and what was reported. -/
structure Moment (host : Host α) where
  state : host.State
  current : Option Address
  report : host.Report

/-- The moment to which an operation leads. -/
def act (host : Host α) (allocator : Allocator) (state : host.State) (current : Option Address)
    (name : String) (op : Bulk.Op α) : host.Moment :=
  let (next, report) := host.step allocator state (host.op name op)
  ⟨next, if op.creates then host.buffer? next name else current, report⟩

/-- The moments of a script. -/
inductive Plays (host : Host α) :
    host.State → Option Address → List host.Move → List host.Moment → Prop where
  | nil {state : host.State} {current : Option Address} : Plays host state current [] []
  | aside {state : host.State} {current : Option Address} {allocator : Allocator} {op : host.Op}
      {moves : List host.Move} {moments : List host.Moment} :
      (∀ buffer, current = some buffer → host.LeavesAlone allocator state op buffer) →
      Plays host (host.step allocator state op).1 current moves moments →
      Plays host state current (.aside allocator op :: moves) moments
  | act {state : host.State} {current : Option Address} {allocator : Allocator} {name : String}
      {op : Bulk.Op α} {moves : List host.Move} {moments : List host.Moment} :
      (op.creates = false →
        ∃ buffer, current = some buffer ∧ host.buffer? state name = some buffer) →
      Plays host (host.act allocator state current name op).state
        (host.act allocator state current name op).current moves moments →
      Plays host state current (.act allocator name op :: moves)
        (host.act allocator state current name op :: moments)

section Playing

variable {state : host.State} {current : Option Address} {allocator : Allocator}
  {moves : List host.Move}

theorem exists_plays_aside {op : host.Op}
    (alone : ∀ buffer, current = some buffer → host.LeavesAlone allocator state op buffer)
    (rest : ∃ moments, host.Plays (host.step allocator state op).1 current moves moments) :
    ∃ moments, host.Plays state current (.aside allocator op :: moves) moments := by
  obtain ⟨moments, plays⟩ := rest
  exact ⟨moments, .aside alone plays⟩

theorem exists_plays_act {name : String} {op : Bulk.Op α}
    (permitted : op.creates = false →
      ∃ buffer, current = some buffer ∧ host.buffer? state name = some buffer)
    (rest : ∃ moments, host.Plays (host.act allocator state current name op).state
      (host.act allocator state current name op).current moves moments) :
    ∃ moments, host.Plays state current (.act allocator name op :: moves) moments := by
  obtain ⟨moments, plays⟩ := rest
  exact ⟨_ :: moments, .act permitted plays⟩

end Playing

/-- After an operation the current buffer has the elements of the vector, every handle to it lists
them, and the answers are the same. -/
structure Agrees (host : Host α) (reached : List α × Except AccessError (Bulk.Answer α))
    (moment : host.Moment) : Prop where
  answers : host.Matches reached.2 moment.report
  current : ∃ buffer, moment.current = some buffer ∧ host.Holds moment.state buffer reached.1 ∧
    ∀ allocator name, host.buffer? moment.state name = some buffer →
      host.Lists reached.1 (host.step allocator moment.state (host.toList name)).2

/-! ## Scripts step by step -/

/-- Each single operation does to the buffer of a name what it does to a vector, in all states that
are valid. -/
structure Follows (host : Host α) (default : α) (Valid : host.State → Prop) : Prop where
  valid : ∀ {state}, Valid state → ∀ allocator op, Valid (host.step allocator state op).1
  creates : ∀ {state op}, Valid state → op.creates = true → ∀ allocator name vector,
    let stepped := host.step allocator state (host.op name op)
    let expected := Bulk.step default vector op
    ∃ buffer, host.buffer? stepped.1 name = some buffer ∧
      host.Holds stepped.1 buffer expected.1 ∧ host.Matches expected.2 stepped.2
  uses : ∀ {state op name buffer vector}, host.buffer? state name = some buffer →
    host.Holds state buffer vector → op.creates = false → ∀ allocator,
    let stepped := host.step allocator state (host.op name op)
    let expected := Bulk.step default vector op
    host.Holds stepped.1 buffer expected.1 ∧ host.Matches expected.2 stepped.2
  spares : ∀ {state allocator op buffer vector}, Valid state →
    host.LeavesAlone allocator state op buffer → host.Holds state buffer vector →
    host.Holds (host.step allocator state op).1 buffer vector
  lists : ∀ {state name buffer vector}, host.buffer? state name = some buffer →
    host.Holds state buffer vector → ∀ allocator,
    host.Lists vector (host.step allocator state (host.toList name)).2

namespace Follows

variable {default : α} {Valid : host.State → Prop} {state : host.State} {current : Option Address}
  {vector : List α} {moves : List host.Move} {moments : List host.Moment}

/-- An operation leads the vector and the sequence to a moment at which they agree. -/
theorem act_agrees {name : String} {op : Bulk.Op α} (follows : host.Follows default Valid)
    (allocator : Allocator) (valid : Valid state)
    (holds : ∀ buffer, current = some buffer → host.Holds state buffer vector)
    (permitted : op.creates = false →
      ∃ buffer, current = some buffer ∧ host.buffer? state name = some buffer) :
    host.Agrees (Bulk.step default vector op) (host.act allocator state current name op) := by
  cases creates : op.creates with
  | true =>
      obtain ⟨buffer, isCurrent, nextHolds, answers⟩ :=
        follows.creates valid creates allocator name vector
      refine ⟨answers, buffer, ?_, nextHolds, fun later _ named => follows.lists named nextHolds later⟩
      rw [act, creates]
      exact isCurrent
  | false =>
      obtain ⟨buffer, isCurrent, named⟩ := permitted creates
      obtain ⟨nextHolds, answers⟩ := follows.uses named (holds buffer isCurrent) creates allocator
      refine ⟨answers, buffer, ?_, nextHolds, fun later _ named => follows.lists named nextHolds later⟩
      rw [act, creates]
      exact isCurrent

/-- The vector and the sequence agree after every step of a script. -/
theorem agrees (follows : host.Follows default Valid)
    (plays : host.Plays state current moves moments) (valid : Valid state)
    (holds : ∀ buffer, current = some buffer → host.Holds state buffer vector) :
    List.Forall₂ host.Agrees (Bulk.run default vector (moves.filterMap Move.act?)) moments := by
  induction plays generalizing vector with
  | nil => exact .nil
  | @aside _ _ allocator op _ _ alone _ ih =>
      refine ih (follows.valid valid allocator op) ?_
      intro buffer isCurrent
      exact follows.spares valid (alone buffer isCurrent) (holds buffer isCurrent)
  | @act _ _ allocator name op _ _ permitted _ ih =>
      have agrees := follows.act_agrees allocator valid holds permitted
      refine .cons agrees (ih (follows.valid valid allocator (host.op name op)) ?_)
      obtain ⟨buffer, isCurrent, nextHolds, _⟩ := agrees.current
      intro other otherCurrent
      cases isCurrent.symm.trans otherCurrent
      exact nextHolds

end Follows

end Host

/-! ## Vectors alone -/

namespace Bulk

variable {default : α} {vector : List α}

theorem step_of_error {op : Op α} {error : AccessError}
    (refused : (step default vector op).2 = .error error) :
    (step default vector op).1 = vector ∧
      ∃ index, vector.length ≤ index ∧ error = .indexOutOfBounds index vector.length := by
  cases op with
  | create | createSized | push | size => cases refused
  | get index =>
      cases found : vector[index]? with
      | none =>
          simp only [step, get, found, Except.map] at refused
          cases refused
          exact ⟨rfl, index, List.getElem?_eq_none_iff.mp found, rfl⟩
      | some x =>
          simp only [step, get, found, Except.map] at refused
          cases refused
  | set index x =>
      by_cases inside : index < vector.length
      · simp only [step, set, inside, if_true] at refused
        cases refused
      · have kept : (step default vector (.set index x)).1 = vector := by
          simp [step, set, inside]
        simp only [step, set, inside, if_false] at refused
        cases refused
        exact ⟨kept, index, Nat.le_of_not_lt inside, rfl⟩

theorem foldl_push (vector elements : List α) : elements.foldl push vector = vector ++ elements := by
  induction elements generalizing vector with
  | nil => exact (List.append_nil vector).symm
  | cons x elements ih => rw [List.foldl_cons, ih, push, List.append_assoc, List.singleton_append]

end Bulk

end LooseValue
