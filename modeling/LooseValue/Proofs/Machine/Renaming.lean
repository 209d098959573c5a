import LooseValue.Proofs.Access.Renaming
import LooseValue.Proofs.Machine.Refusals

/-!
# Renamed states

Building from a renamed state leads to the renamed form of what it leads to from the state itself,
even where other addresses are picked for the new blocks: the renaming is extended along the way, block
by block, and stays as it was on all that was live before. Everything else that a step does to a state
commutes with one fixed renaming.
-/

set_option autoImplicit false

namespace LooseValue

variable {ρ σ : Renaming} {registers : List (String × Register)} {store : Store}

def Register.rename (ρ : Renaming) (register : Register) : Register :=
  { register with item := register.item.rename ρ }

@[simp] theorem Register.mk_rename (type : Ty) (item : Item) :
    Register.mk type (item.rename ρ) = (Register.mk type item).rename ρ := rfl

/-- The named items with every address in them renamed. -/
def renameAll (ρ : Renaming) (registers : List (String × Register)) : List (String × Register) :=
  registers.map (Prod.map id (Register.rename ρ))

@[simp] theorem lookup_renameAll (registers : List (String × Register)) (name : String) :
    (renameAll ρ registers).lookup name = (registers.lookup name).map (Register.rename ρ) := by
  induction registers with
  | nil => rfl
  | cons named registers ih =>
      obtain ⟨key, register⟩ := named
      simp only [renameAll] at ih ⊢
      simp only [List.map_cons, Prod.map, List.lookup_cons, id, ih]
      cases name == key <;> rfl

theorem Renaming.Extends.renameAll (extended : σ.Extends ρ store)
    (live : ∀ named ∈ registers, ∀ handle ∈ named.2.item.handles, handle ∈ store.addresses) :
    renameAll σ registers = renameAll ρ registers := by
  refine List.map_congr_left fun named member => ?_
  simp only [Prod.map, Register.rename, extended.rename_item (live named member)]

/-! ## Building -/

theorem Renaming.Extends.trans {τ : Renaming} {after : Store} (second : τ.Extends σ after)
    (first : σ.Extends ρ store) (grown : store.Grown after) : τ.Extends ρ store :=
  fun address live => (second address (grown.mem_addresses live)).trans (first address live)

theorem Store.GrownTo.exists_allocate_rename {after : Store} {block : Block}
    (made : store.GrownTo block.handles after)
    (closed : ∀ handle ∈ store.handles, handle ∈ store.addresses) (first second : Allocator)
    (extending : σ.Extends ρ store) :
    ∃ τ : Renaming, τ.Extends ρ store ∧ (after.rename σ).allocate second (block.rename σ) =
      (after.allocate first block).map τ (Store.rename τ) := by
  obtain ⟨τ, extended, allocated⟩ :=
    Store.exists_allocate_rename σ first second (made.grown.closed closed) made.live
  exact ⟨τ, extended.trans extending made.grown, allocated⟩

variable {first second : Allocator}

mutual

private theorem Ty.exists_makeDefault_rename (ρ : Renaming)
    (closed : ∀ handle ∈ store.handles, handle ∈ store.addresses) : ∀ type : Ty,
    ∃ σ : Renaming, σ.Extends ρ store ∧ type.makeDefault second (store.rename ρ) =
      (type.makeDefault first store).map (Item.rename σ) (Store.rename σ)
  | .kind kind => by
      obtain ⟨σ, extended, made⟩ := Kind.exists_makeDefault_rename ρ closed kind
      refine ⟨σ, extended, ?_⟩
      rw [Ty.makeDefault, made]
      rfl
  | .value _ => ⟨ρ, .refl ρ store, rfl⟩
  | .dynamic => ⟨ρ, .refl ρ store, rfl⟩

private theorem Kind.exists_makeDefault_rename (ρ : Renaming)
    (closed : ∀ handle ∈ store.handles, handle ∈ store.addresses) : ∀ kind : Kind,
    ∃ σ : Renaming, σ.Extends ρ store ∧ kind.makeDefault second (store.rename ρ) =
      (kind.makeDefault first store).map (Payload.rename σ) (Store.rename σ)
  | .boolean => ⟨ρ, .refl ρ store, rfl⟩
  | .number => ⟨ρ, .refl ρ store, rfl⟩
  | .text => ⟨ρ, .refl ρ store, rfl⟩
  | .shared payload => by
      obtain ⟨σ, extending, made⟩ := Ty.exists_makeDefault_rename ρ closed payload
      have grown : store.GrownTo (Block.cell (payload.makeDefault first store).1).handles
        (payload.makeDefault first store).2 := payload.grownTo_makeDefault store
      obtain ⟨τ, extended, allocated⟩ := grown.exists_allocate_rename closed first second extending
      refine ⟨τ, extended, ?_⟩
      rw [Kind.makeDefault, made]
      exact congrArg (Prod.map Payload.shared id) allocated
  | .sequence _ => by
      have grown : store.GrownTo (Block.buffer []).handles store := .of_scalar store
      obtain ⟨σ, extended, allocated⟩ :=
        grown.exists_allocate_rename closed first second (.refl ρ store)
      exact ⟨σ, extended, congrArg (Prod.map Payload.sequence id) allocated⟩

end

namespace Literal

/-- Two outcomes of building, from a store and from its renamed form: both fail, or one is the renamed
form of the other, under a renaming that may differ in what is new. -/
def Alike {α : Type} (ρ : Renaming) (store : Store) (rename : Renaming → α → α)
    (one other : Option (α × Store)) : Prop :=
  ∃ σ : Renaming, σ.Extends ρ store ∧ other = one.map (Prod.map (rename σ) (Store.rename σ))

variable {α : Type} {rename : Renaming → α → α} {one other : Option (α × Store)}

theorem Alike.refl (same : other = one.map (Prod.map (rename ρ) (Store.rename ρ))) :
    Alike ρ store rename one other :=
  ⟨ρ, .refl ρ store, same⟩

/-- A handle to a new block that holds what was built. -/
def enclose (allocator : Allocator) (block : α → Block) (handle : Address → Payload)
    (made : α × Store) : Item × Store :=
  (made.2.allocate allocator (block made.1)).map (.plain ∘ handle) id

private theorem Alike.enclose {block : α → Block} {handle : Address → Payload}
    (alike : Alike ρ store rename one other)
    (closed : ∀ handle ∈ store.handles, handle ∈ store.addresses)
    (grown : ∀ content after, one = some (content, after) →
      store.GrownTo (block content).handles after)
    (blocks : ∀ σ content, block (rename σ content) = (block content).rename σ)
    (handles : ∀ (σ : Renaming) address, handle (σ address) = (handle address).rename σ) :
    Alike ρ store Item.rename (one.map (enclose first block handle))
      (other.map (enclose second block handle)) := by
  obtain ⟨σ, extending, rfl⟩ := alike
  cases one with
  | none => exact .refl rfl
  | some made =>
      obtain ⟨content, after⟩ := made
      obtain ⟨τ, extended, allocated⟩ :=
        (grown content after rfl).exists_allocate_rename closed first second extending
      refine ⟨τ, extended, ?_⟩
      simp only [Option.map_some, Prod.map, Literal.enclose, blocks, allocated, Function.comp,
        handles]
      rfl

private theorem build_shared (allocator : Allocator) (registers : List (String × Register))
    (referent : Literal) (payload : Ty) (store : Store) :
    build allocator registers (.shared referent) (.kind (.shared payload)) store =
      (build allocator registers referent payload store).map (enclose allocator .cell .shared) := by
  rw [build]
  cases build allocator registers referent payload store <;> rfl

private theorem build_sequence (allocator : Allocator) (registers : List (String × Register))
    (literals : List Literal) (payload : Ty) (store : Store) :
    build allocator registers (.sequence literals) (.kind (.sequence payload)) store =
      (buildAll allocator registers literals payload store).map
        (enclose allocator .buffer .sequence) := by
  rw [build]
  cases buildAll allocator registers literals payload store <;> rfl

mutual

theorem build_alike (first second : Allocator) : ∀ (literal : Literal) (ρ : Renaming) (type : Ty)
    {store : Store}, (∀ handle ∈ store.handles, handle ∈ store.addresses) →
    (∀ named ∈ registers, ∀ handle ∈ named.2.item.handles, handle ∈ store.addresses) →
    Alike ρ store Item.rename (literal.build first registers type store)
      (literal.build second (renameAll ρ registers) type (store.rename ρ))
  | .boolean b, ρ, type, store, closed, live => by
      rcases type with (_ | _ | _ | _ | _) | _ | _ <;> exact .refl rfl
  | .number x, ρ, type, store, closed, live => by
      rcases type with (_ | _ | _ | _ | _) | _ | _ <;> exact .refl rfl
  | .text s, ρ, type, store, closed, live => by
      rcases type with (_ | _ | _ | _ | _) | _ | _ <;> exact .refl rfl
  | .undefined, ρ, type, store, closed, live => by
      rcases type with _ | _ | _ <;> exact .refl rfl
  | .default, ρ, type, store, closed, live => by
      obtain ⟨σ, extended, made⟩ := type.exists_makeDefault_rename ρ closed
      exact ⟨σ, extended, congrArg some made⟩
  | .copy name, ρ, type, store, closed, live => by
      refine .refl ?_
      simp only [build, lookup_renameAll]
      cases registers.lookup name with
      | none => rfl
      | some register =>
          simp only [Option.map_some, Register.rename]
          split
          · simp
          · rfl
  | .shared referent, ρ, type, store, closed, live => by
      rcases type with (_ | _ | _ | payload | _) | _ | _
      case kind.shared =>
        rw [build_shared, build_shared]
        exact (build_alike first second referent ρ payload closed live).enclose closed
          (fun _ _ => grownTo_build referent live) (fun _ _ => rfl) (fun _ _ => rfl)
      all_goals exact .refl rfl
  | .sequence literals, ρ, type, store, closed, live => by
      rcases type with (_ | _ | _ | _ | payload) | _ | _
      case kind.sequence =>
        rw [build_sequence, build_sequence]
        exact (buildAll_alike first second literals ρ payload closed live).enclose closed
          (fun _ _ => grownTo_buildAll literals live) (fun _ _ => rfl) (fun _ _ => rfl)
      all_goals exact .refl rfl
  | .active position literal, ρ, type, store, closed, live => by
      simp only [build]
      cases type.kinds?.bind (·[position]?) with
      | none => exact .refl rfl
      | some kind =>
          obtain ⟨σ, extended, built⟩ := build_alike first second literal ρ (.kind kind) closed live
          refine ⟨σ, extended, ?_⟩
          simp only [built]
          rcases literal.build first registers (.kind kind) store with _ | ⟨payload | value, after⟩ <;>
            rfl

private theorem buildAll_alike (first second : Allocator) :
    ∀ (literals : List Literal) (ρ : Renaming)
    (type : Ty) {store : Store}, (∀ handle ∈ store.handles, handle ∈ store.addresses) →
    (∀ named ∈ registers, ∀ handle ∈ named.2.item.handles, handle ∈ store.addresses) →
    Alike ρ store (fun σ => List.map (Item.rename σ)) (buildAll first registers literals type store)
      (buildAll second (renameAll ρ registers) literals type (store.rename ρ))
  | [], _, _, _, _, _ => .refl rfl
  | literal :: literals, ρ, type, store, closed, live => by
      obtain ⟨σ, extending, built⟩ := build_alike first second literal ρ type closed live
      simp only [buildAll, built]
      cases made : literal.build first registers type store with
      | none => exact .refl rfl
      | some result =>
          obtain ⟨item, middle⟩ := result
          have grown := grownTo_build literal live made
          -- The items after the first are built under the renaming that the first has led to.
          obtain ⟨τ, extended, builtAll⟩ := buildAll_alike first second literals σ type
            (grown.grown.closed closed) fun named member handle inside =>
              grown.grown.mem_addresses (live named member handle inside)
          refine ⟨τ, extended.trans extending grown.grown, ?_⟩
          simp only [Option.map_some, Prod.map, ← extending.renameAll live, builtAll,
            ← extended.rename_item grown.live]
          rcases buildAll first registers literals type middle with _ | ⟨items, after⟩ <;> rfl

end

end Literal

/-! ## States -/

namespace Value

@[simp] theorem equalsPrimitive_rename (a : Value) (scalar : Scalar) :
    (a.rename ρ).equalsPrimitive (.ofScalar scalar) = a.equalsPrimitive (.ofScalar scalar) := by
  have fixed : Primitive.map ρ (.ofScalar scalar) = .ofScalar scalar := by
    cases scalar with
    | object identity => exact identity.elim
    | _ => rfl
  simp only [equalsPrimitive, primitive?_rename]
  cases a.primitive? with
  | none => rfl
  | some own =>
      rw [Option.map_some]
      exact (congrArg _ fixed.symm).trans (Primitive.looseEq_map ρ own _)

end Value

theorem Primitive.map_map {ι κ μ : Type} (g : κ → μ) (f : ι → κ) (primitive : Primitive ι) :
    (primitive.map f).map g = primitive.map (g ∘ f) := by
  cases primitive <;> rfl

theorem Summary.ofValue_rename (store : Store) (value : Value) :
    Summary.ofValue (store.rename ρ) (value.rename ρ) = Summary.ofValue store value := by
  simp [Summary.ofValue, Primitive.map_map, Function.comp_def]

theorem Profile.ofPayload_rename (store : Store) (payload : Payload) :
    Profile.ofPayload (store.rename ρ) (payload.rename ρ) = Profile.ofPayload store payload := by
  have refers : (Profile.ofPayload (store.rename ρ) (payload.rename ρ)).hasReferent =
      (Profile.ofPayload store payload).hasReferent := by
    cases payload <;> rfl
  simp only [Profile.ofPayload] at refers ⊢
  simp [refers, Primitive.map_map, Function.comp_def]

namespace State

def rename (ρ : Renaming) (state : State) : State where
  store := state.store.rename ρ
  registers := renameAll ρ state.registers

@[simp] theorem store_rename (state : State) : (state.rename ρ).store = state.store.rename ρ := rfl

@[simp] theorem registers_rename (state : State) :
    (state.rename ρ).registers = renameAll ρ state.registers := rfl

@[simp] theorem mk_rename (store : Store) (registers : List (String × Register)) :
    State.mk (store.rename ρ) (renameAll ρ registers) = (State.mk store registers).rename ρ := rfl

variable (state : State) (name : String) (register : Register)

@[simp] theorem register?_rename :
    (state.rename ρ).register? name = (state.register? name).map (Register.rename ρ) :=
  lookup_renameAll state.registers name

@[simp] theorem value?_rename : (state.rename ρ).value? name =
    (state.value? name).map fun named => (named.1, named.2.1, named.2.2.rename ρ) := by
  simp only [value?, register?_rename]
  rcases state.register? name with _ | ⟨type, payload | value⟩
  · rfl
  · rfl
  · change type.kinds?.map _ = (type.kinds?.map _).map _
    rw [Option.map_map]
    rfl

@[simp] theorem heldBy_rename : (state.rename ρ).heldBy name = (state.heldBy name).map ρ := by
  simp only [heldBy, register?_rename]
  cases state.register? name with
  | none => rfl
  | some register => exact register.item.handles_rename

@[simp] theorem assign_rename : (state.rename ρ).assign name (register.rename ρ) =
    (state.assign name register).rename ρ := by
  simp [assign, rename, renameAll, List.eraseP_map, Function.comp_def]

@[simp] theorem put_rename :
    (state.rename ρ).put name (register.rename ρ) = (state.put name register).rename ρ := by
  simp only [put, assign_rename, heldBy_rename]
  exact congrArg (State.mk · _) (state.store.release_rename _)

@[simp] theorem remove_rename : (state.rename ρ).remove name = (state.remove name).rename ρ := by
  simp only [remove, heldBy_rename]
  simp [rename, renameAll, List.eraseP_map, Function.comp_def]

@[simp] theorem retain_rename (item : Item) :
    (state.rename ρ).retain (item.rename ρ) = (state.retain item).rename ρ := by
  simp only [retain, Item.handles_rename]
  exact congrArg (State.mk · _) (state.store.retain_rename _)

@[simp] theorem release_rename (item : Item) :
    (state.rename ρ).release (item.rename ρ) = (state.release item).rename ρ := by
  simp only [release, Item.handles_rename]
  exact congrArg (State.mk · _) (state.store.release_rename _)

@[simp] theorem deliver_rename (target : Option String) :
    (state.rename ρ).deliver target (register.rename ρ) =
      (state.deliver target register).rename ρ := by
  cases target with
  | none => exact state.release_rename register.item
  | some name => exact state.put_rename name register

@[simp] theorem produce_rename (target : Option String) :
    (state.rename ρ).produce target (register.rename ρ) =
      (state.produce target register).map (rename ρ) id := by
  have content : (state.rename ρ).store.tree? (register.rename ρ).item =
      state.store.tree? register.item := state.store.tree?_rename register.item
  rw [produce, deliver_rename, content]
  rfl

theorem copyOut_rename (target : Option String) (type : Ty) (access : Logged Item) :
    (state.rename ρ).copyOut target type (access.map (Item.rename ρ)) =
      (state.copyOut target type access).map (rename ρ) id := by
  obtain ⟨outcome, events⟩ := access
  cases outcome with
  | error error => rfl
  | ok item =>
      have produced := (state.retain item).produce_rename ⟨type, item⟩ target (ρ := ρ)
      rw [← retain_rename] at produced
      exact congrArg (fun made : State × Report => (made.1, { made.2 with events })) produced

end State

end LooseValue
