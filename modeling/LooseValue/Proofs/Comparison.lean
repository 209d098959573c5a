import LooseValue.Proofs.Machine.Soundness
import LooseValue.Proofs.Number.Text

/-!
# Laws of loose equality

Loose equality is symmetric, and everything but not-a-number equals itself. It is no equivalence on
all primitives: a boolean equals numbers that differ. Without booleans and not-a-numbers it is one,
since it then compares canonical forms, in which each number is replaced by its text. That a text
belongs to one number only, the two zeros aside, makes the forms agree with the numbers.

The laws carry over to values; a value that holds nothing equals not even its copy.
-/

set_option autoImplicit false

namespace LooseValue

namespace Primitive

variable {ι : Type}

def isBoolean : Primitive ι → Bool
  | .boolean _ => true
  | _ => false

def isNaN : Primitive ι → Bool
  | .number x => x.isNaN
  | _ => false

/-- The primitives on which loose equality is an equivalence. -/
def Stable (a : Primitive ι) : Prop := a.isBoolean = false ∧ a.isNaN = false

instance (a : Primitive ι) : Decidable a.Stable := inferInstanceAs (Decidable (_ ∧ _))

/-- The primitive with a number replaced by its text. -/
def canonical : Primitive ι → Primitive ι
  | .number x => .text (numberText x)
  | a => a

variable [DecidableEq ι] {a b : Primitive ι}

private theorem looseEq_self (a : Primitive ι) : a.looseEq a = !a.isNaN := by
  cases a with
  | boolean b => simp [looseEq, isNaN]
  | number x => exact x.numericEq_self
  | text s => simp [looseEq, isNaN]
  | object identity => simp [looseEq, isNaN]

private theorem looseEq_iff_canonical (stableA : a.Stable) (stableB : b.Stable) :
    a.looseEq b = true ↔ a.canonical = b.canonical := by
  cases a with
  | boolean => cases stableA.1
  | number x =>
      cases b with
      | boolean => cases stableB.1
      | number y =>
          simp only [looseEq, canonical, text.injEq]
          exact numericEq_iff_numberText stableA.2
      | text t => simp [looseEq, canonical]
      | object => simp [looseEq, canonical]
  | text s =>
      cases b with
      | boolean => cases stableB.1
      | number y =>
          simp only [looseEq, canonical, beq_iff_eq, text.injEq]
          exact eq_comm
      | text t => simp [looseEq, canonical]
      | object => simp [looseEq, canonical]
  | object identity =>
      cases b with
      | boolean => cases stableB.1
      | number => simp [looseEq, canonical]
      | text => simp [looseEq, canonical]
      | object => simp [looseEq, canonical]

theorem looseEq_equivalence (ι : Type) [DecidableEq ι] :
    Equivalence fun a b : { a : Primitive ι // a.Stable } => a.1.looseEq b.1 = true where
  refl a := (looseEq_iff_canonical a.2 a.2).mpr rfl
  symm := by
    intro a b equal
    rwa [looseEq_comm]
  trans := by
    intro a b c first second
    rw [looseEq_iff_canonical a.2 b.2] at first
    rw [looseEq_iff_canonical b.2 c.2] at second
    exact (looseEq_iff_canonical a.2 c.2).mpr (first.trans second)

end Primitive

namespace Value

def holdsNaN (value : Value) : Bool := value.primitive?.any Primitive.isNaN

private theorem looseEq_self_iff (value : Value) :
    value.looseEq value = true ↔ value.isUndefined = false ∧ value.holdsNaN = false := by
  cases value with
  | undefined => simp [looseEq, primitive?, payload?, isUndefined]
  | active alternative =>
      simp [looseEq, primitive?, payload?, isUndefined, holdsNaN, Primitive.looseEq_self]

end Value

namespace State

variable {state : State} {source name : String} {type : Ty} {kinds : List Kind} {value : Value}

private theorem value?_of_register? (named : state.register? name = some ⟨type, .value value⟩)
    (listed : type.kinds? = some kinds) : state.value? name = some (type, kinds, value) := by
  simp [value?, named, listed]

/-- A copy and what it was copied from are one value. -/
theorem value?_step_clone (allocator : Allocator) (target : String)
    (named : state.value? source = some (type, kinds, value)) :
    (state.step allocator (.clone source target)).1.value? source = some (type, kinds, value) ∧
      (state.step allocator (.clone source target)).1.value? target = some (type, kinds, value) := by
  obtain ⟨registered, listed⟩ := value?_inv named
  have stepped : (state.step allocator (.clone source target)).1 =
      (state.retain (.value value)).put target ⟨type, .value value⟩ := by
    simp [step, step?, registered, produce, deliver]
  rw [stepped]
  have copied : ((state.retain (.value value)).put target ⟨type, .value value⟩).register? target =
      some ⟨type, .value value⟩ := register?_assign_self ..
  refine ⟨?_, value?_of_register? copied listed⟩
  by_cases same : source = target
  · rw [same]
    exact value?_of_register? copied listed
  · exact value?_of_register? ((register?_assign_of_ne same _).trans registered) listed

end State

/-- Loose equality is symmetric, reflexive but for not-a-numbers, and an equivalence without these
and the booleans. On values it is symmetric, inequality denies it, and a copy equals its original
unless that is undefined or not a number. -/
theorem looseEq_laws :
    (∀ (ι : Type) [DecidableEq ι],
      (∀ a b : Primitive ι, a.looseEq b = b.looseEq a) ∧
      (∀ a : Primitive ι, a.looseEq a = true ↔ a.isNaN = false) ∧
      Equivalence fun a b : { a : Primitive ι // a.Stable } => a.1.looseEq b.1 = true) ∧
    (∀ a b : Value, a.looseEq b = b.looseEq a ∧ a.looseNe b = !a.looseEq b) ∧
    (∀ value : Value, value.looseEq value = true ↔
      value.isUndefined = false ∧ value.holdsNaN = false) ∧
    ∀ (allocator : Allocator) (state : State) (source target : String) (type : Ty)
      (kinds : List Kind) (value : Value), state.value? source = some (type, kinds, value) →
      ∃ equal : Bool,
        ((state.step allocator (.clone source target)).1.step allocator (.compare source target)).2 =
          .answer (.comparison equal equal) ∧
        (equal = true ↔ value.isUndefined = false ∧ value.holdsNaN = false) := by
  refine ⟨?_, ?_, Value.looseEq_self_iff, ?_⟩
  · intro ι _
    refine ⟨Primitive.looseEq_comm, ?_, Primitive.looseEq_equivalence ι⟩
    intro a
    rw [Primitive.looseEq_self, Bool.not_eq_true']
  · intro a b
    exact ⟨a.looseEq_comm b, rfl⟩
  · intro allocator state source target type kinds value named
    obtain ⟨original, copied⟩ := State.value?_step_clone allocator target named
    exact ⟨_, State.step_compare allocator original copied, value.looseEq_self_iff⟩

/-- A boolean would link numbers that differ. -/
example :
    (Primitive.number (.ofInt 1) : Primitive Nat).looseEq (.boolean true) = true ∧
    (Primitive.boolean true : Primitive Nat).looseEq (.number (.ofInt 2)) = true ∧
    (Primitive.number (.ofInt 1) : Primitive Nat).looseEq (.number (.ofInt 2)) = false := by
  decide

/-- A value that holds a number, under the name `x`. -/
def numberNamed (x : Binary64) : State where
  store := .empty
  registers := [("x", ⟨.value [.number], .value (.active ⟨0, .number x⟩)⟩)]

/-- The zeros are linked by their text, a copy of negative zero equals it, and a copy of
not-a-number does not. -/
theorem numberNamed_compared :
    (Primitive.number (.zero false) : Primitive Address).looseEq (.text "0") = true ∧
    (Primitive.text "0" : Primitive Address).looseEq (.number (.zero true)) = true ∧
    (Primitive.number (.zero false) : Primitive Address).looseEq (.number (.zero true)) = true ∧
    (((numberNamed (.zero true)).step .ascending (.clone "x" "y")).1.step .ascending
      (.compare "x" "y")).2 = .answer (.comparison true true) ∧
    (((numberNamed (.ofBits 0x7FF8000000000000)).step .ascending (.clone "x" "y")).1.step .ascending
      (.compare "x" "y")).2 = .answer (.comparison false false) := by
  obtain ⟨laws, _, _, copies⟩ := looseEq_laws
  obtain ⟨_, _, equivalence⟩ := laws Address
  have named (x : Binary64) :
      (numberNamed x).value? "x" = some (.value [.number], [.number], .active ⟨0, .number x⟩) := rfl
  have first : (Primitive.number (.zero false) : Primitive Address).looseEq (.text "0") = true := rfl
  have second : (Primitive.text "0" : Primitive Address).looseEq (.number (.zero true)) = true := rfl
  have linked := @equivalence.trans ⟨.number (.zero false), by decide⟩ ⟨.text "0", by decide⟩
    ⟨.number (.zero true), by decide⟩ first second
  refine ⟨first, second, linked, ?_, ?_⟩
  · obtain ⟨equal, answer, verdict⟩ := copies .ascending _ "x" "y" _ _ _ (named (.zero true))
    rw [answer, verdict.mpr (by decide)]
  · obtain ⟨equal, answer, verdict⟩ :=
      copies .ascending _ "x" "y" _ _ _ (named (.ofBits 0x7FF8000000000000))
    cases equal with
    | false => exact answer
    | true => exact absurd (verdict.mp rfl) (by decide)

end LooseValue
