import LooseValue.Proofs.Access.Soundness
import LooseValue.Proofs.Store.Texts

/-!
# Rendering and reading

A reference is rendered as what it refers to and a sequence as its elements, each read out of the
value in the ordinary way. Reading moves an item to another position of another list, and a text
shows no positions; so it makes no difference whether the text follows the storage directly or is put
together from the texts of what the reads give.
-/

set_option autoImplicit false

namespace LooseValue

private theorem mapM_map_of_mapM {α β γ : Type} {f : α → Option β} {g : β → γ} {items : List α}
    {results : List β} (mapped : items.mapM f = some results) :
    items.mapM (fun item => (f item).map g) = some (results.map g) := by
  induction items generalizing results with
  | nil =>
      cases mapped
      rfl
  | cons item items ih =>
      simp only [List.mapM_cons, Option.bind_eq_bind, Option.bind_eq_some_iff, Option.pure_def,
        Option.some.injEq] at mapped
      obtain ⟨first, here, rest, later, rfl⟩ := mapped
      simp [here, ih later]

private theorem Tree.renderAll_eq (trees : List Tree) :
    Tree.renderAll trees = trees.map Tree.render := by
  induction trees with
  | nil => rfl
  | cons tree trees ih => rw [Tree.renderAll, ih, List.map_cons]

private theorem Tree.debugAll_eq (trees : List Tree) :
    Tree.debugAll trees = trees.map Tree.debug := by
  induction trees with
  | nil => rfl
  | cons tree trees ih => rw [Tree.debugAll, ih, List.map_cons]

/-! ## What positions do not show in -/

section Positions

variable {β : Type} {observe : Tree → β}

/-- The observations of a tree that do not see at which position a payload is active. -/
def Tree.Blind (observe : Tree → β) : Prop :=
  ∀ position payload, observe (.active position payload) = observe payload

private theorem Tree.blind_render :
    Tree.Blind fun tree => String.ofList tree.render := fun _ _ => rfl

private theorem Tree.blind_debug : Tree.Blind fun tree => String.ofList tree.debug := fun _ _ => rfl

private theorem Item.map_tree?_shift (blind : Tree.Blind observe)
    (payloadTree? : Payload → Option Tree)
    (offset : Nat) (item : Item) :
    ((item.shift offset).tree? payloadTree?).map observe = (item.tree? payloadTree?).map observe := by
  rcases item with payload | (_ | ⟨position, payload⟩)
  · simp [Item.shift, Item.tree?, Function.comp_def, blind offset]
  · rfl
  · simp [Item.shift, Item.tree?, Function.comp_def, blind position, blind (offset + position)]

variable (blind : Tree.Blind observe) (payloadTree? : Payload → Option Tree)

include blind

private theorem Shape.map_tree?_widenLeft (left right : Shape) (item : Item) :
    ((Shape.widenLeft left right item).tree? payloadTree?).map observe =
      (item.tree? payloadTree?).map observe := by
  cases left <;> cases right <;>
    simp [Shape.widenLeft, Item.toValue_retag_appendLeft, Item.map_tree?_shift blind]

private theorem Shape.map_tree?_widenRight (left right : Shape) (item : Item) :
    ((Shape.widenRight left right item).tree? payloadTree?).map observe =
      (item.tree? payloadTree?).map observe := by
  cases left <;> cases right <;>
    simp [Shape.widenRight, Item.toValue_retag_appendRight, Item.map_tree?_shift blind]

private theorem Shape.map_tree?_embed (contribution : Kind → Shape) (kinds : List Kind)
    (position : Nat)
    (item : Item) :
    ((Shape.embed contribution kinds position item).tree? payloadTree?).map observe =
      (item.tree? payloadTree?).map observe := by
  induction kinds generalizing position with
  | nil => rfl
  | cons kind kinds ih =>
      cases position with
      | zero => exact map_tree?_widenLeft blind payloadTree? ..
      | succ position =>
          rw [Shape.embed, map_tree?_widenRight blind payloadTree?, ih]

end Positions

namespace Store

variable {store : Store} {kinds : List Kind} {position : Nat}

private theorem rendered?_embed (store : Store) (contribution : Kind → Shape) (kinds : List Kind)
    (position : Nat) (item : Item) :
    store.rendered? (Shape.embed contribution kinds position item) = store.rendered? item := by
  simp only [rendered?_eq, tree?]
  exact Shape.map_tree?_embed Tree.blind_render _ contribution kinds position item

private theorem debugged?_embed (store : Store) (contribution : Kind → Shape) (kinds : List Kind)
    (position : Nat) (item : Item) :
    store.debugged? (Shape.embed contribution kinds position item) = store.debugged? item := by
  simp only [debugged?_eq, tree?]
  exact Shape.map_tree?_embed Tree.blind_debug _ contribution kinds position item

/-! ## References and sequences -/

private theorem Grounded.texts_shared {cell : Address} (grounded : store.Grounded [cell])
    (position : Nat) :
    ∃ text debug, store.rendered? (store.content cell) = some text ∧
      store.debugged? (store.content cell) = some debug ∧
      store.rendered? (.value (.active ⟨position, .shared cell⟩)) = some text ∧
      store.debugged? (.value (.active ⟨position, .shared cell⟩)) = some ("&" ++ debug) := by
  obtain ⟨content, contentShown, shown⟩ := grounded.tree?_shared
  have marked : String.ofList ('&' :: content.debug) = "&" ++ String.ofList content.debug := by
    apply String.toList_injective
    simp
  refine ⟨String.ofList content.render, String.ofList content.debug, ?_, ?_, ?_, ?_⟩
  · rw [rendered?_eq, contentShown, Option.map_some]
  · rw [debugged?_eq, contentShown, Option.map_some]
  · rw [rendered?_eq, tree?_active, shown, Option.map_some, Option.map_some]
    rfl
  · rw [debugged?_eq, tree?_active, shown, Option.map_some, Option.map_some, ← marked]
    rfl

private theorem Grounded.texts_sequence {buffer : Address} (grounded : store.Grounded [buffer])
    (position : Nat) :
    ∃ texts debugs, (store.items buffer).mapM store.rendered? = some texts ∧
      (store.items buffer).mapM store.debugged? = some debugs ∧
      store.rendered? (.value (.active ⟨position, .sequence buffer⟩)) =
        some (",".intercalate texts) ∧
      store.debugged? (.value (.active ⟨position, .sequence buffer⟩)) =
        some ("[" ++ ", ".intercalate debugs ++ "]") := by
  obtain ⟨trees, itemsShown, shown⟩ := grounded.tree?_sequence
  refine ⟨trees.map fun tree => String.ofList tree.render,
    trees.map fun tree => String.ofList tree.debug, ?_, ?_, ?_, ?_⟩
  · rw [funext store.rendered?_eq]
    exact mapM_map_of_mapM itemsShown
  · rw [funext store.debugged?_eq]
    exact mapM_map_of_mapM itemsShown
  · rw [rendered?_eq, tree?_active, shown, Option.map_some, Option.map_some, Option.some.injEq]
    apply String.toList_injective
    simp [Tree.render, Tree.renderAll_eq, Function.comp_def]
  · rw [debugged?_eq, tree?_active, shown, Option.map_some, Option.map_some, Option.some.injEq]
    apply String.toList_injective
    simp [Tree.debug, Tree.debugAll_eq, bracketed, Function.comp_def]

private theorem getElem?_map_embed {buffer : Address} {index : Nat} {element : Item}
    (stored : ((store.items buffer).map (Shape.embed Kind.elementShape kinds position))[index]? =
      some element) :
    store.element kinds index (.active ⟨position, .sequence buffer⟩) = .grant element := by
  rw [List.getElem?_map, Option.map_eq_some_iff] at stored
  obtain ⟨item, found, rfl⟩ := stored
  simp only [element, itemAt, Sequence.get_of_getElem? found]
  rfl

/-- The texts of a value that refers to something are those of its referent, and the texts of a value
with elements are put together from those of its elements, whatever its list of kinds makes of their
types; in a well-typed store what is read has the type that the list resolves to. -/
theorem texts_of_reads {value : Value} (grounded : store.Grounded value.handles) (kinds : List Kind) :
    (∀ position cell, value = .active ⟨position, .shared cell⟩ →
      ∃ referent text debug, store.referent kinds value = .grant referent ∧
        (∀ typing, store.WellTyped typing → value.HasKinds typing kinds →
          (Shape.referent kinds).Holds typing referent) ∧
        store.rendered? referent = some text ∧ store.rendered? (.value value) = some text ∧
        store.debugged? referent = some debug ∧
        store.debugged? (.value value) = some ("&" ++ debug)) ∧
    (∀ position buffer, value = .active ⟨position, .sequence buffer⟩ →
      ∃ (elements : List Item) (texts debugs : List String),
        elements.length = (store.items buffer).length ∧
        (∀ index element, elements[index]? = some element →
          store.element kinds index value = .grant element ∧
          ∀ typing, store.WellTyped typing → value.HasKinds typing kinds →
            (Shape.element kinds).Holds typing element) ∧
        elements.mapM store.rendered? = some texts ∧
        store.rendered? (.value value) = some (",".intercalate texts) ∧
        elements.mapM store.debugged? = some debugs ∧
        store.debugged? (.value value) = some ("[" ++ ", ".intercalate debugs ++ "]")) ∧
    store.rendered? (.value .undefined) = some "undefined" ∧
    store.debugged? (.value .undefined) = some "undefined" := by
  have live : ∀ handle ∈ value.handles, handle ∈ store.addresses :=
    fun handle member => grounded.live handle (.handle member)
  refine ⟨?_, ?_, rfl, rfl⟩
  · rintro position cell rfl
    obtain ⟨text, debug, rendered, debugged, whole, wholeDebug⟩ := grounded.texts_shared position
    refine ⟨_, text, debug, rfl, ?_, ?_, whole, ?_, wholeDebug⟩
    · intro typing storeTyped valueTyped
      exact storeTyped.referent_holds valueTyped live rfl
    · rw [rendered?_embed, rendered]
    · rw [debugged?_embed, debugged]
  · rintro position buffer rfl
    obtain ⟨texts, debugs, rendered, debugged, whole, wholeDebug⟩ := grounded.texts_sequence position
    refine ⟨(store.items buffer).map (Shape.embed Kind.elementShape kinds position), texts, debugs,
      List.length_map _, ?_, ?_, whole, ?_, wholeDebug⟩
    · intro index element stored
      have granted := getElem?_map_embed stored
      refine ⟨granted, ?_⟩
      intro typing storeTyped valueTyped
      exact storeTyped.element_holds valueTyped live (congrArg Logged.outcome granted)
    · rw [List.mapM_map, Function.comp_def]
      simp only [rendered?_embed, rendered]
    · rw [List.mapM_map, Function.comp_def]
      simp only [debugged?_embed, debugged]

/-- A sequence of undefined and of a reference to a text that looks like two. -/
def commaStore : Store where
  entries := [⟨2, 1, .buffer [.value .undefined, .value (.active ⟨1, .shared 1⟩)]⟩,
    ⟨1, 1, .cell (.plain (.text "a,b"))⟩]

def commaKinds : List Kind :=
  [.sequence (.kind .number), .sequence (.value [.boolean, .shared (.kind .text)])]

theorem commaStore_texts :
    commaStore.Grounded [2] ∧
    commaStore.rendered? (.value (.active ⟨1, .sequence 2⟩)) = some "undefined,a,b" ∧
    commaStore.debugged? (.value (.active ⟨1, .sequence 2⟩)) = some "[undefined, &\"a,b\"]" := by
  have grounded : commaStore.Grounded (Value.active ⟨1, .sequence 2⟩).handles :=
    grounded_of_descending (by decide) (by decide) (by decide)
  obtain ⟨elements, texts, debugs, length, reads, rendered, whole, debugged, wholeDebug⟩ :=
    (texts_of_reads grounded commaKinds).2.1 1 2 rfl
  -- Reading moves the reference past the number of the other sequence.
  obtain ⟨first, second, rfl⟩ := List.length_eq_two.mp length
  cases (reads 0 first rfl).1
  cases (reads 1 second rfl).1
  have shown : [Item.value .undefined, .value (.active ⟨2, .shared 1⟩)].mapM commaStore.debugged? =
      some ["undefined", "&\"a,b\""] := by decide +kernel
  cases rendered
  cases shown.symm.trans debugged
  exact ⟨grounded, whole, wholeDebug⟩

end Store

end LooseValue
