import LooseValue.Machine.State
import LooseValue.Proofs.Store.Counting

/-!
# Counting of handles in a state

The roots of a state are the handles of its named items. A state is counted if its store is counted
relative to them.
-/

set_option autoImplicit false

namespace LooseValue

/-! ## Names -/

section Names

variable {γ : Type} {named : List (String × γ)} {name other : String} {held : γ}

theorem mem_of_lookup (found : named.lookup name = some held) : (name, held) ∈ named := by
  obtain ⟨leading, suffix, divided, _⟩ := List.lookup_eq_some_iff.mp found
  rw [divided]
  exact List.mem_append_right _ List.mem_cons_self

theorem lookup_eraseP_of_ne (different : other ≠ name) :
    (named.eraseP fun entry => entry.1 == name).lookup other = named.lookup other := by
  induction named with
  | nil => rfl
  | cons head tail ih =>
      obtain ⟨key, own⟩ := head
      by_cases here : key = name
      · subst here
        have skipped : (other == key) = false := by simpa using different
        simp [List.lookup_cons, skipped]
      · rw [List.eraseP_cons_of_neg (by simpa using here)]
        simp only [List.lookup_cons, ih]

/-- The handles of all names, divided by one of them. -/
theorem handles_perm_lookup (named : List (String × γ)) (name : String)
    (handles : γ → List Address) :
    (named.flatMap fun entry => handles entry.2).Perm
      ((named.lookup name).toList.flatMap handles ++
        (named.eraseP fun entry => entry.1 == name).flatMap fun entry => handles entry.2) := by
  induction named with
  | nil => exact .nil
  | cons head tail ih =>
      obtain ⟨key, own⟩ := head
      by_cases here : key = name
      · subst here
        simp
      · have skipped : (name == key) = false := by simpa using Ne.symm here
        rw [List.eraseP_cons_of_neg (by simpa using here)]
        simp only [List.lookup_cons, skipped, List.flatMap_cons]
        exact (ih.append_left (handles own)).trans (List.perm_append_comm_assoc ..)

end Names

/-! ## States -/

namespace State

def roots (state : State) : List Address :=
  state.registers.flatMap fun named => named.2.item.handles

def Counted (state : State) : Prop := state.store.Counted state.roots

variable {state : State}

theorem register?_assign_self (state : State) (name : String) (register : Register) :
    (state.assign name register).register? name = some register := by
  simp [register?, assign]

theorem register?_assign_of_ne {name other : String} (different : other ≠ name)
    (register : Register) : (state.assign name register).register? other = state.register? other := by
  have skipped : (other == name) = false := by simpa using different
  simp only [register?, assign, List.lookup_cons, skipped]
  exact lookup_eraseP_of_ne different

/-- The roots of a state, divided by a name. -/
theorem roots_perm (state : State) (name : String) :
    state.roots.Perm (state.heldBy name ++ (state.remove name).roots) := by
  have held : state.heldBy name =
      (state.registers.lookup name).toList.flatMap fun register => register.item.handles := by
    unfold heldBy register?
    cases state.registers.lookup name <;> simp
  rw [held]
  exact handles_perm_lookup state.registers name fun register => register.item.handles

theorem roots_assign (state : State) (name : String) (register : Register) :
    (state.assign name register).roots = register.item.handles ++ (state.remove name).roots := rfl

/-- An item in hand that is given a name is counted there, and what the name held is no more. -/
theorem counted_put (state : State) (name : String) (register : Register)
    (counted : state.store.Counted (register.item.handles ++ state.roots)) :
    (state.put name register).Counted := by
  have divided : (register.item.handles ++ state.roots).Perm
      (state.heldBy name ++ (register.item.handles ++ (state.remove name).roots)) :=
    ((state.roots_perm name).append_left register.item.handles).trans
      (List.perm_append_comm_assoc ..)
  exact (counted.perm divided).release

end State

end LooseValue
