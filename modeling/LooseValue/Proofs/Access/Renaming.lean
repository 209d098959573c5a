import LooseValue.Proofs.Embedding
import LooseValue.Proofs.Store.Renaming
import LooseValue.Store.Access

/-!
# Accesses to renamed stores

Embedding and projection move positions and leave payloads alone, so they commute with renamings, and
with them every access does: it is granted and refused alike, with the same error and the same events.
-/

set_option autoImplicit false

namespace LooseValue

variable {ρ : Renaming}

/-! ## Embeddings -/

private theorem Item.shift_rename (offset : Nat) (item : Item) :
    (item.rename ρ).shift offset = (item.shift offset).rename ρ := by
  rcases item with payload | (_ | alternative) <;> rfl

private theorem Ty.ofValue?_rename (type : Ty) (value : Value) :
    type.ofValue? (value.rename ρ) = (type.ofValue? value).map (Item.rename ρ) := by
  cases type <;> cases value <;> rfl

private theorem Alternative.split_rename (left : List Kind) (alternative : Alternative) :
    (alternative.rename ρ).split left =
      (alternative.split left).map (Alternative.rename ρ) (Alternative.rename ρ) := by
  by_cases inside : alternative.position < left.length
  · have inside' : (alternative.rename ρ).position < left.length := inside
    rw [split_of_lt inside, split_of_lt inside']
    rfl
  · have beyond := Nat.le_of_not_lt inside
    have beyond' : left.length ≤ (alternative.rename ρ).position := beyond
    rw [split_of_le beyond, split_of_le beyond']
    rfl

namespace Shape

private theorem widenLeft_rename (left right : Shape) (result : Item) :
    widenLeft left right (result.rename ρ) = (widenLeft left right result).rename ρ := by
  match left, right with
  | none, _ => rfl
  | some _, none => rfl
  | some _, some _ =>
      simp only [widenLeft, Item.toValue_retag_appendLeft, Item.shift_rename]

private theorem widenRight_rename (left right : Shape) (result : Item) :
    widenRight left right (result.rename ρ) = (widenRight left right result).rename ρ := by
  match left, right with
  | none, _ => rfl
  | some _, none => rfl
  | some _, some _ =>
      simp only [widenRight, Item.toValue_retag_appendRight, Item.shift_rename]

private theorem narrowLeft_rename (left right : Shape) (merged : Item) :
    narrowLeft left right (merged.rename ρ) = (narrowLeft left right merged).map (Item.rename ρ) := by
  match left, right with
  | none, _ => rfl
  | some _, none => rfl
  | some left, some _ =>
      rcases merged with payload | (_ | alternative)
      · rfl
      · exact left.ofValue?_rename .undefined
      · simp only [Item.rename, Value.rename, narrowLeft, Alternative.split_rename]
        cases alternative.split left.members with
        | inl own => exact left.ofValue?_rename (.active own)
        | inr other => rfl

private theorem narrowRight_rename (left right : Shape) (merged : Item) :
    narrowRight left right (merged.rename ρ) =
      (narrowRight left right merged).map (Item.rename ρ) := by
  match left, right with
  | none, _ => rfl
  | some _, none => rfl
  | some left, some right =>
      rcases merged with payload | (_ | alternative)
      · rfl
      · exact right.ofValue?_rename .undefined
      · simp only [Item.rename, Value.rename, narrowRight, Alternative.split_rename]
        cases alternative.split left.members with
        | inl other => rfl
        | inr own => exact right.ofValue?_rename (.active own)

variable (contribution : Kind → Shape)

private theorem embed_rename (kinds : List Kind) (position : Nat) (result : Item) :
    embed contribution kinds position (result.rename ρ) =
      (embed contribution kinds position result).rename ρ := by
  induction kinds generalizing position with
  | nil => rfl
  | cons kind kinds ih =>
      cases position with
      | zero => exact widenLeft_rename ..
      | succ position => rw [embed, embed, ih, widenRight_rename]

private theorem project_rename (kinds : List Kind) (position : Nat) (result : Item) :
    project contribution kinds position (result.rename ρ) =
      (project contribution kinds position result).map (Item.rename ρ) := by
  induction kinds generalizing position result with
  | nil => rfl
  | cons kind kinds ih =>
      cases position with
      | zero => exact narrowLeft_rename ..
      | succ position =>
          rw [project, project, narrowRight_rename, Option.bind_map, Option.map_bind]
          exact congrArg _ (funext fun own => ih position own)

end Shape

/-! ## Accesses -/

theorem Logged.map_map {α β γ : Type} (g : β → γ) (f : α → β) (access : Logged α) :
    (access.map f).map g = access.map (g ∘ f) := by
  obtain ⟨outcome, events⟩ := access
  cases outcome <;> rfl

namespace Store

variable (store : Store)

theorem itemAt_rename (buffer : Address) (index : Nat) :
    (store.rename ρ).itemAt (ρ buffer) index = (store.itemAt buffer index).map (Item.rename ρ) := by
  simp only [itemAt, Sequence.get, items_rename, List.getElem?_map, List.length_map]
  cases (store.items buffer)[index]? <;> rfl

theorem exchange_rename (buffer : Address) (index : Nat) (item : Item) :
    (store.rename ρ).exchange (ρ buffer) index (item.rename ρ) =
      (store.exchange buffer index item).map (rename ρ) (Logged.map (Item.rename ρ)) := by
  simp only [exchange, Sequence.set, Sequence.update, items_rename, List.getElem?_map,
    List.length_map]
  cases (store.items buffer)[index]? with
  | none => simp only [Option.map_none, Item.handles_rename, release_rename]; rfl
  | some previous =>
      simp only [Option.map_some, ← List.map_set]
      exact congrArg (·, _) (store.write_rename buffer (.buffer _))

theorem referent_rename (kinds : List Kind) (value : Value) :
    (store.rename ρ).referent kinds (value.rename ρ) =
      (store.referent kinds value).map (Item.rename ρ) := by
  rcases value with _ | ⟨position, payload⟩
  · rfl
  · cases payload with
    | shared cell =>
        simp only [Value.rename, Alternative.rename, Payload.rename, referent, content_rename,
          Shape.embed_rename]
        rfl
    | _ => rfl

theorem element_rename (kinds : List Kind) (index : Nat) (value : Value) :
    (store.rename ρ).element kinds index (value.rename ρ) =
      (store.element kinds index value).map (Item.rename ρ) := by
  rcases value with _ | ⟨position, payload⟩
  · rfl
  · cases payload with
    | sequence buffer =>
        simp only [Value.rename, Alternative.rename, Payload.rename, element, itemAt_rename,
          Logged.map_map, Shape.embed_rename, Function.comp_def]
    | _ => rfl

theorem setElement_rename (kinds : List Kind) (index : Nat) (element : Item) (value : Value) :
    (store.rename ρ).setElement kinds index (element.rename ρ) (value.rename ρ) =
      (store.setElement kinds index element value).map (rename ρ) id := by
  have refused : (store.rename ρ).release (element.rename ρ).handles =
      (store.release element.handles).rename ρ := by
    rw [Item.handles_rename, release_rename]
  rcases value with _ | ⟨position, payload⟩
  · exact congrArg (·, _) refused
  · cases payload with
    | sequence buffer =>
        simp only [Value.rename, Alternative.rename, Payload.rename, setElement, Shape.project_rename]
        cases Shape.project Kind.elementShape kinds position element with
        | none => exact congrArg (·, _) refused
        | some item =>
            simp only [Option.map_some, exchange_rename]
            obtain ⟨after, outcome, events⟩ := store.exchange buffer index item
            cases outcome with
            | error error => rfl
            | ok previous =>
                simp only [Prod.map, Logged.map, Except.map, Item.handles_rename, release_rename, id]
    | _ => exact congrArg (·, _) refused

end Store

end LooseValue
