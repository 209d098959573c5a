import LooseValue.Event

/-!
# Sequences

The operations on the elements of a sequence, whatever these are. Every position is checked, and an
access beyond the end is refused with the position and the length. Who holds the elements, and what
becomes of those that are put out, is not decided here.
-/

set_option autoImplicit false

namespace LooseValue

namespace Sequence

variable {α ρ : Type}

def get (elements : List α) (index : Nat) : Logged α :=
  match elements[index]? with
  | some element => .grant element
  | none => .refuse (.indexOutOfBounds index elements.length)

/-- The element at an index changed in place, with the result of the change. -/
def update (elements : List α) (index : Nat) (change : α → α × ρ) : List α × Logged ρ :=
  match elements[index]? with
  | some element =>
      let (changed, result) := change element
      (elements.set index changed, .grant result)
  | none => (elements, .refuse (.indexOutOfBounds index elements.length))

/-- The element at an index exchanged for another one; the result is the previous one. -/
def set (elements : List α) (index : Nat) (element : α) : List α × Logged α :=
  update elements index fun previous => (element, previous)

def push (elements : List α) (element : α) : List α := elements ++ [element]

/-- The elements without the last one, and the last one if there is any. -/
def pop (elements : List α) : List α × Option α := (elements.dropLast, elements.getLast?)

section Bounds

variable {elements : List α} {index : Nat} {element : α}

theorem get_of_getElem? (found : elements[index]? = some element) :
    get elements index = .grant element := by
  simp only [get, found]

theorem get_of_le (beyond : elements.length ≤ index) :
    get elements index = .refuse (.indexOutOfBounds index elements.length) := by
  simp only [get, List.getElem?_eq_none beyond]

theorem update_of_getElem? (found : elements[index]? = some element) (change : α → α × ρ) :
    update elements index change =
      (elements.set index (change element).1, .grant (change element).2) := by
  simp only [update, found]

theorem update_of_le (beyond : elements.length ≤ index) (change : α → α × ρ) :
    update elements index change =
      (elements, .refuse (.indexOutOfBounds index elements.length)) := by
  simp only [update, List.getElem?_eq_none beyond]

end Bounds

end Sequence

end LooseValue
