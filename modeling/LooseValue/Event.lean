import LooseValue.AccessError

/-!
# Events

What a run tells an observer beside its answers: a change of the active alternative, or a refused
access. A `Logged` result carries the events that were emitted on the way to it; the only way to
refuse an access is `Logged.refuse`, which emits the event of the very error it returns.
-/

set_option autoImplicit false

namespace LooseValue

inductive Level where
  | trace
  | debug
  deriving DecidableEq

/-- What happened, with the names of the kinds or the error involved. -/
inductive Event where
  /-- A value took up a new alternative. -/
  | replaced (source target : String)
  /-- A value gave up its alternative. -/
  | cleared (source : String)
  | refused (error : AccessError)
  deriving DecidableEq

namespace Event

/-- Changes are for tracing, refusals for debugging. -/
def level : Event → Level
  | .replaced .. => .trace
  | .cleared _ => .trace
  | .refused _ => .debug

def message : Event → String
  | .replaced .. => "replaced value alternative"
  | .cleared _ => "cleared value alternative"
  | .refused (.invalidAccess ..) => "rejected value access"
  | .refused (.indexOutOfBounds ..) => "sequence index out of bounds"
  | .refused (.elementMismatch ..) => "element kind rejected by sequence"

end Event

/-- The outcome of an access with the events emitted by it. -/
structure Logged (α : Type) where
  outcome : Except AccessError α
  events : List Event

namespace Logged

variable {α β : Type}

/-- A granted access emits nothing. -/
def grant (result : α) : Logged α := ⟨.ok result, []⟩

/-- A refused access emits its error. -/
def refuse (error : AccessError) : Logged α := ⟨.error error, [.refused error]⟩

/-- The access with its result transformed. -/
def map (f : α → β) (access : Logged α) : Logged β := ⟨access.outcome.map f, access.events⟩

end Logged

end LooseValue
