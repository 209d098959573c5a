import LooseValue.Machine.Step

/-!
# The closed form of resolution

Resolution folds `merge` over a list of kinds. The fold has a closed form in the payload types that
the list contributes: no payload resolves to nothing, a single one to itself, and several to the
value over all their members in order. Kinds that contribute nothing leave no trace.
-/

set_option autoImplicit false

namespace LooseValue

namespace Shape

/-- The types that the kinds of a list contribute to an access, in the order of the list. -/
def payloads (contribution : Kind → Shape) (kinds : List Kind) : List Ty :=
  kinds.filterMap contribution

/-- The shape of an access to which a list of payload types contributes. -/
def ofPayloads : List Ty → Shape
  | [] => none
  | [payload] => some payload
  | payloads => some (.value (payloads.flatMap Ty.members))

variable {contribution : Kind → Shape}

@[simp] theorem payloads_nil : payloads contribution [] = [] := rfl

theorem payloads_cons_of_none {kind : Kind} (absent : contribution kind = none)
    (kinds : List Kind) :
    payloads contribution (kind :: kinds) = payloads contribution kinds :=
  List.filterMap_cons_none absent

theorem payloads_cons_of_some {kind : Kind} {payload : Ty}
    (present : contribution kind = some payload) (kinds : List Kind) :
    payloads contribution (kind :: kinds) = payload :: payloads contribution kinds :=
  List.filterMap_cons_some present

private theorem ofPayloads_cons (payload : Ty) (payloads : List Ty) :
    ofPayloads (payload :: payloads) = merge (some payload) (ofPayloads payloads) := by
  cases payloads with
  | nil => rfl
  | cons next rest =>
      cases rest with
      | nil => simp [ofPayloads, merge]
      | cons third rest => simp [ofPayloads, merge, Ty.members]

/-- The fold over a list depends on the payload types that the list contributes, and on these
alone. -/
theorem resolve_eq_ofPayloads (contribution : Kind → Shape) (kinds : List Kind) :
    resolve contribution kinds = ofPayloads (payloads contribution kinds) := by
  induction kinds with
  | nil => rfl
  | cons kind kinds ih =>
      cases contributed : contribution kind with
      | none =>
          rw [resolve, contributed, none_merge, payloads_cons_of_none contributed, ih]
      | some payload =>
          rw [resolve, contributed, payloads_cons_of_some contributed, ofPayloads_cons, ih]

private theorem ofPayloads_eq_none_iff {payloads : List Ty} :
    ofPayloads payloads = none ↔ payloads = [] := by
  cases payloads with
  | nil => simp [ofPayloads]
  | cons payload rest => cases rest <;> simp [ofPayloads]

private theorem ofPayloads_of_two_le {payloads : List Ty} (several : 2 ≤ payloads.length) :
    ofPayloads payloads = some (.value (payloads.flatMap Ty.members)) := by
  match payloads, several with
  | _ :: _ :: _, _ => rfl

/-- Whatever the number of payloads, the members of the shape are those of the payloads in
order. -/
theorem members_of_ofPayloads {payloads : List Ty} {type : Ty}
    (resolved : ofPayloads payloads = some type) : type.members = payloads.flatMap Ty.members := by
  match payloads with
  | [] => cases resolved
  | [payload] =>
      cases resolved
      simp
  | _ :: _ :: _ =>
      cases resolved
      rfl

theorem resolve_eq_none_iff {kinds : List Kind} :
    resolve contribution kinds = none ↔ payloads contribution kinds = [] := by
  rw [resolve_eq_ofPayloads, ofPayloads_eq_none_iff]

theorem payloads_ne_nil_of_resolve {kinds : List Kind} {type : Ty}
    (resolved : resolve contribution kinds = some type) : payloads contribution kinds ≠ [] := by
  intro absent
  rw [resolve_eq_none_iff.mpr absent] at resolved
  cases resolved

end Shape

private theorem Ty.mem_members_iff {type : Ty} {kind : Kind} :
    kind ∈ type.members ↔ type = .kind kind ∨ ∃ kinds, type.kinds? = some kinds ∧ kind ∈ kinds := by
  cases type with
  | kind own => simp [members, kinds?, eq_comm]
  | value kinds => simp [members, kinds?]
  | dynamic => simp [members, kinds?]

/-- The closed form of a resolved shape, in the payload types `payloads` that contribute to it. -/
structure Shape.Splices (payloads : List Ty) (shape : Shape) : Prop where
  absent_iff : shape = none ↔ payloads = []
  single : ∀ payload, payloads = [payload] → shape = some payload
  several : 2 ≤ payloads.length → shape = some (.value (payloads.flatMap Ty.members))
  /-- Every alternative of the result is a kind that is a payload, or an alternative of one. -/
  only_kinds : ∀ type, shape = some type → ∀ kind ∈ type.members,
    ∃ payload ∈ payloads, payload = .kind kind ∨ ∃ kinds, payload.kinds? = some kinds ∧ kind ∈ kinds

theorem Shape.resolve_splices (contribution : Kind → Shape) (kinds : List Kind) :
    Shape.Splices (payloads contribution kinds) (resolve contribution kinds) where
  absent_iff := resolve_eq_none_iff
  single := by
    intro payload only
    rw [resolve_eq_ofPayloads, only]
    rfl
  several := by
    intro several
    rw [resolve_eq_ofPayloads, ofPayloads_of_two_le several]
  only_kinds := by
    intro type resolved kind member
    rw [resolve_eq_ofPayloads] at resolved
    rw [members_of_ofPayloads resolved] at member
    obtain ⟨payload, contributes, inside⟩ := List.mem_flatMap.mp member
    exact ⟨payload, contributes, Ty.mem_members_iff.mp inside⟩

namespace State

variable {state : State}

/-- A copied result is an access, whether it was granted or refused. -/
theorem copyOut_ne_unresolved (target : Option String) (type : Ty) (access : Logged Item) :
    state.copyOut target type access ≠ (state, .failure .unresolved) := by
  intro same
  have outcomes := congrArg (fun reached => reached.2.outcome) same
  cases outcome : access.outcome with
  | ok item => simp [copyOut, outcome, produce, Report.answer, Report.failure] at outcomes
  | error error => simp [copyOut, outcome, Report.failure] at outcomes

end State

/-- Resolution of any list of kinds in closed form, for dereferencing and for indexing. An access to
which no payload contributes is not available, whatever the value holds, and any other is. -/
theorem access_shapes_closed_form (kinds : List Kind) :
    Shape.Splices (Shape.payloads Kind.referentShape kinds) (Shape.referent kinds) ∧
    Shape.Splices (Shape.payloads Kind.elementShape kinds) (Shape.element kinds) ∧
    ∀ (allocator : Allocator) (state : State) (name : String) (type : Ty) (value : Value),
      (∀ target,
        state.valueStep? allocator name type kinds value (.referent target) =
            some (state, .failure .unresolved) ↔
          Shape.payloads Kind.referentShape kinds = []) ∧
      (∀ index target,
        state.valueStep? allocator name type kinds value (.element index target) =
            some (state, .failure .unresolved) ↔
          Shape.payloads Kind.elementShape kinds = []) ∧
      (∀ index literal,
        state.valueStep? allocator name type kinds value (.setElement index literal) =
            some (state, .failure .unresolved) ↔
          Shape.payloads Kind.elementShape kinds = []) := by
  refine ⟨Shape.resolve_splices _ kinds, Shape.resolve_splices _ kinds, ?_⟩
  intro allocator state name type value
  refine ⟨?_, ?_, ?_⟩
  · intro target
    rw [← Shape.resolve_eq_none_iff, ← Shape.referent]
    cases resolved : Shape.referent kinds with
    | none => simp [State.valueStep?, resolved]
    | some result => simp [State.valueStep?, resolved, State.copyOut_ne_unresolved]
  · intro index target
    rw [← Shape.resolve_eq_none_iff, ← Shape.element]
    cases resolved : Shape.element kinds with
    | none => simp [State.valueStep?, resolved]
    | some result => simp [State.valueStep?, resolved, State.copyOut_ne_unresolved]
  · intro index literal
    rw [← Shape.resolve_eq_none_iff, ← Shape.element]
    cases resolved : Shape.element kinds with
    | none => simp [State.valueStep?, resolved]
    | some result =>
        simp only [State.valueStep?, resolved, reduceCtorEq, iff_false]
        intro same
        cases built : literal.build allocator state.registers result state.store with
        | none => simp [built] at same
        | some made =>
            have outcomes := congrArg (Option.map fun reached => reached.2.outcome) same
            simp only [built, Option.bind_eq_bind, Option.bind_some, Option.pure_def,
              Option.map_some, Report.failure, Option.some.injEq] at outcomes
            split at outcomes <;> cases outcomes

end LooseValue
