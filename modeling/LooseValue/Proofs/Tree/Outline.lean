import LooseValue.Proofs.Number.Text
import LooseValue.Proofs.Store.Texts
import LooseValue.Proofs.Text.Quoted

/-!
# Debug texts tell outlines apart

The outline of an item is its tree without the positions of the active alternatives, and with each
number known by its canonical text only. The debug text shows the whole outline and nothing else:
two items have one debug text just if they have one outline, whatever their types and their stores.

The first character of a debug text tells the form of the outline, and within a form the text shows
where it ends: a quoted text by its bare quotation mark, a sequence by its bracket, a number by the
comma, the bracket or the end that follows it.
-/

set_option autoImplicit false

namespace LooseValue

/-- The canonical text of some number. -/
structure NumberText where
  text : String
  canonical : ∃ x, numberText x = text

def NumberText.of (x : Binary64) : NumberText := ⟨numberText x, x, rfl⟩

private theorem NumberText.eq_of_text {one other : NumberText} (same : one.text = other.text) :
    one = other := by
  cases one
  cases other
  cases same
  rfl

/-- The structure of an item: what is left of its tree when the positions of the active alternatives
are erased. -/
inductive Outline where
  | undefined
  | boolean (b : Bool)
  | number (text : NumberText)
  | text (s : String)
  | shared (referent : Outline)
  | sequence (items : List Outline)

namespace Tree

mutual

def outline : Tree → Outline
  | .undefined => .undefined
  | .active _ payload => payload.outline
  | .boolean b => .boolean b
  | .number x => .number (.of x)
  | .text s => .text s
  | .shared referent => .shared referent.outline
  | .sequence items => .sequence (outlineAll items)

def outlineAll : List Tree → List Outline
  | [] => []
  | tree :: trees => tree.outline :: outlineAll trees

end

end Tree

namespace Outline

mutual

def debug : Outline → List Char
  | .undefined => undefinedName.toList
  | .boolean b => booleanText b
  | .number shown => shown.text.toList
  | .text s => quoted s.toList
  | .shared referent => '&' :: referent.debug
  | .sequence items => bracketed (debugAll items)

def debugAll : List Outline → List (List Char)
  | [] => []
  | outline :: outlines => outline.debug :: debugAll outlines

end

/-! ## First characters -/

inductive Form where
  | undefined
  | boolean
  | number
  | text
  | shared
  | sequence
  deriving DecidableEq

def form : Outline → Form
  | .undefined => .undefined
  | .boolean _ => .boolean
  | .number _ => .number
  | .text _ => .text
  | .shared _ => .shared
  | .sequence _ => .sequence

/-- The form of the outline whose debug text begins with the character. None begins with the bracket
that ends a sequence. -/
def Form.ofChar? : Char → Option Form
  | ']' => none
  | 'u' => some .undefined
  | 't' => some .boolean
  | 'f' => some .boolean
  | '"' => some .text
  | '&' => some .shared
  | '[' => some .sequence
  | _ => some .number

private theorem Form.ofChar?_of_isDigit {c : Char} (digit : c.isDigit = true) :
    Form.ofChar? c = some .number := by
  unfold Form.ofChar?
  split <;> first | rfl | contradiction

private theorem exists_debug_eq_cons (outline : Outline) :
    ∃ c cs, outline.debug = c :: cs ∧ Form.ofChar? c = some outline.form := by
  cases outline with
  | undefined => exact ⟨'u', _, rfl, rfl⟩
  | boolean b =>
      cases b with
      | false => exact ⟨'f', _, rfl, rfl⟩
      | true => exact ⟨'t', _, rfl, rfl⟩
  | number shown =>
      obtain ⟨_, x, rfl⟩ := shown
      have letters : ∀ c ∈ ['-', 'N', 'I'], Form.ofChar? c = some .number := by
        simp [Form.ofChar?]
      obtain ⟨c, cs, sort, starts⟩ := x.exists_text_eq_cons
      refine ⟨c, cs, ?_, sort.elim Form.ofChar?_of_isDigit (letters c)⟩
      simp only [debug, numberText, String.toList_ofList, starts]
  | text s => exact ⟨'"', _, rfl, rfl⟩
  | shared referent => exact ⟨'&', _, rfl, rfl⟩
  | sequence items => exact ⟨'[', _, rfl, rfl⟩

variable {one other : Outline} {rest suffix : List Char}

private theorem form_eq_of_append_eq (same : one.debug ++ rest = other.debug ++ suffix) :
    one.form = other.form := by
  obtain ⟨c, cs, starts, form⟩ := one.exists_debug_eq_cons
  obtain ⟨d, ds, otherStarts, otherForm⟩ := other.exists_debug_eq_cons
  rw [starts, otherStarts, List.cons_append, List.cons_append, List.cons.injEq] at same
  rw [same.1, otherForm, Option.some.injEq] at form
  exact form.symm

private theorem append_ne_bracket : one.debug ++ rest ≠ ']' :: suffix := by
  obtain ⟨c, cs, starts, form⟩ := one.exists_debug_eq_cons
  rw [starts]
  rintro ⟨rfl, _⟩
  contradiction

/-! ## Cancellation -/

/-- Nothing follows, or the next item of a sequence, or its end. -/
def Closes (rest : List Char) : Prop := ∀ c ∈ rest.head?, c = ',' ∨ c = ']'

/-- The debug text of the outline can be told from whatever follows it in a debug text. -/
def Cancels (one : Outline) : Prop :=
  ∀ {other : Outline} {rest suffix : List Char}, Closes rest → Closes suffix →
    one.debug ++ rest = other.debug ++ suffix → one = other ∧ rest = suffix

private theorem cancels_undefined : undefined.Cancels := by
  intro other rest suffix _ _ same
  cases other with
  | undefined => exact ⟨rfl, List.append_cancel_left same⟩
  | _ => exact absurd (form_eq_of_append_eq same) (by simp [form])

private theorem cancels_boolean (b : Bool) : (boolean b).Cancels := by
  intro other rest suffix _ _ same
  cases other with
  | boolean c =>
      have words : b = c := by
        cases b <;> cases c <;> simp [debug, booleanText] at same ⊢
      subst words
      exact ⟨rfl, List.append_cancel_left same⟩
  | _ => exact absurd (form_eq_of_append_eq same) (by simp [form])

private theorem cancels_text (s : String) : (text s).Cancels := by
  intro other rest suffix _ _ same
  cases other with
  | text t =>
      obtain ⟨texts, rests⟩ := quoted_append_inj same
      exact ⟨congrArg _ (String.toList_injective texts), rests⟩
  | _ => exact absurd (form_eq_of_append_eq same) (by simp [form])

private theorem cancels_number (shown : NumberText) : (number shown).Cancels := by
  intro other rest suffix restCloses suffixCloses same
  have stops : ∀ {rest : List Char}, Closes rest →
      ∀ c ∈ rest.head?, ¬ (c ≠ ',' ∧ c ≠ ']') := by
    intro rest closes c starts
    rw [← not_or, not_not]
    exact closes c starts
  cases other with
  | number otherShown =>
      obtain ⟨_, x, rfl⟩ := shown
      obtain ⟨_, y, rfl⟩ := otherShown
      simp only [debug, numberText, String.toList_ofList] at same
      obtain ⟨texts, rests⟩ := append_inj_of_stops x.text_free_of_delimiters
        y.text_free_of_delimiters (stops restCloses) (stops suffixCloses) same
      exact ⟨congrArg _ (NumberText.eq_of_text (congrArg String.ofList texts)), rests⟩
  | _ => exact absurd (form_eq_of_append_eq same) (by simp [form])

private theorem cancels_shared {referent : Outline} (cancels : referent.Cancels) :
    (shared referent).Cancels := by
  intro other rest suffix restCloses suffixCloses same
  cases other with
  | shared otherReferent =>
      obtain ⟨rfl, rests⟩ := cancels restCloses suffixCloses (List.tail_eq_of_cons_eq same)
      exact ⟨rfl, rests⟩
  | _ => exact absurd (form_eq_of_append_eq same) (by simp [form])

/-- What follows the opening bracket of a sequence. -/
def listed (items : List Outline) : List Char := [',', ' '].intercalate (debugAll items) ++ [']']

/-- What follows an item of a sequence. -/
def continued : List Outline → List Char
  | [] => [']']
  | items => ',' :: ' ' :: listed items

private theorem listed_cons (item : Outline) (items : List Outline) :
    listed (item :: items) = item.debug ++ continued items := by
  cases items with
  | nil => simp [listed, debugAll, continued]
  | cons next items => simp [listed, debugAll, continued]

private theorem closes_continued (items : List Outline) (rest : List Char) :
    Closes (continued items ++ rest) := by
  cases items with
  | nil => simp [Closes, continued]
  | cons => simp [Closes, continued]

private theorem listed_append_inj {items others : List Outline} {rest suffix : List Char}
    (cancels : ∀ item ∈ items, item.Cancels)
    (same : listed items ++ rest = listed others ++ suffix) : items = others ∧ rest = suffix := by
  induction items generalizing others with
  | nil =>
      cases others with
      | nil => exact ⟨rfl, List.append_cancel_left same⟩
      | cons other others =>
          rw [listed_cons, List.append_assoc] at same
          exact absurd same.symm append_ne_bracket
  | cons item items ih =>
      cases others with
      | nil =>
          rw [listed_cons, List.append_assoc] at same
          exact absurd same append_ne_bracket
      | cons other others =>
          -- Either list of items goes on in a way that closes its first item.
          rw [listed_cons, listed_cons, List.append_assoc, List.append_assoc] at same
          obtain ⟨rfl, tails⟩ := cancels item List.mem_cons_self (closes_continued items rest)
            (closes_continued others suffix) same
          match items, others with
          | [], [] => exact ⟨rfl, List.append_cancel_left tails⟩
          | [], _ :: _ => exact absurd (List.head_eq_of_cons_eq tails) (by decide)
          | _ :: _, [] => exact absurd (List.head_eq_of_cons_eq tails) (by decide)
          | _ :: _, _ :: _ =>
              obtain ⟨equal, rests⟩ := ih (List.forall_mem_of_forall_mem_cons cancels)
                (List.tail_eq_of_cons_eq (List.tail_eq_of_cons_eq tails))
              exact ⟨congrArg _ equal, rests⟩

private theorem cancels_sequence {items : List Outline} (cancels : ∀ item ∈ items, item.Cancels) :
    (sequence items).Cancels := by
  intro other rest suffix _ _ same
  cases other with
  | sequence others =>
      obtain ⟨rfl, rests⟩ := listed_append_inj cancels (List.tail_eq_of_cons_eq same)
      exact ⟨rfl, rests⟩
  | _ => exact absurd (form_eq_of_append_eq same) (by simp [form])

mutual

private theorem cancels : (one : Outline) → one.Cancels
  | .undefined => cancels_undefined
  | .boolean b => cancels_boolean b
  | .number shown => cancels_number shown
  | .text s => cancels_text s
  | .shared referent => cancels_shared referent.cancels
  | .sequence items => cancels_sequence (cancelsAll items)

private theorem cancelsAll : (items : List Outline) → ∀ item ∈ items, item.Cancels
  | [] => List.forall_mem_nil _
  | item :: items => List.forall_mem_cons.mpr ⟨item.cancels, cancelsAll items⟩

end

private theorem debug_injective {one other : Outline} (same : one.debug = other.debug) :
    one = other := by
  have ends : Closes [] := by simp [Closes]
  refine (one.cancels ends ends ?_).1
  rw [List.append_nil, List.append_nil, same]

end Outline

/-! ## Trees and items -/

mutual

private theorem Tree.debug_outline : (tree : Tree) → tree.outline.debug = tree.debug
  | .undefined => rfl
  | .active _ payload => payload.debug_outline
  | .boolean _ => rfl
  | .number _ => String.toList_ofList
  | .text _ => rfl
  | .shared referent => congrArg ('&' :: ·) referent.debug_outline
  | .sequence items => congrArg bracketed (Tree.debugAll_outlineAll items)

private theorem Tree.debugAll_outlineAll :
    (trees : List Tree) → Outline.debugAll (Tree.outlineAll trees) = Tree.debugAll trees
  | [] => rfl
  | tree :: trees => congrArg₂ _ tree.debug_outline (Tree.debugAll_outlineAll trees)

end

private theorem Tree.debug_eq_iff {tree other : Tree} :
    tree.debug = other.debug ↔ tree.outline = other.outline := by
  rw [← tree.debug_outline, ← other.debug_outline]
  exact ⟨Outline.debug_injective, congrArg Outline.debug⟩

namespace Store

def outline? (store : Store) (item : Item) : Option Outline := (store.tree? item).map Tree.outline

/-- Items that lead into no cycle have an outline and a debug text each, and two of them, of any
types and in any stores, have one debug text just if they have one outline. -/
theorem debug_text_eq_iff_outline_eq {store other : Store} {item otherItem : Item}
    (grounded : store.Grounded item.handles) (otherGrounded : other.Grounded otherItem.handles) :
    ∃ outline otherOutline text otherText,
      store.outline? item = some outline ∧ other.outline? otherItem = some otherOutline ∧
      store.debugged? item = some text ∧ other.debugged? otherItem = some otherText ∧
      (text = otherText ↔ outline = otherOutline) := by
  obtain ⟨tree, shown⟩ := grounded.exists_tree?
  obtain ⟨otherTree, otherShown⟩ := otherGrounded.exists_tree?
  refine ⟨tree.outline, otherTree.outline, String.ofList tree.debug, String.ofList otherTree.debug,
    ?_, ?_, ?_, ?_, ?_⟩
  · rw [outline?, shown, Option.map_some]
  · rw [outline?, otherShown, Option.map_some]
  · rw [debugged?_eq, shown, Option.map_some]
  · rw [debugged?_eq, otherShown, Option.map_some]
  · rw [String.ofList_inj, Tree.debug_eq_iff]

/-- A sequence of one text that looks like the two of the other sequence. -/
def ambiguousStore : Store where
  entries := [⟨2, 1, .buffer [.plain (.text "a"), .plain (.text "b")]⟩,
    ⟨1, 1, .buffer [.plain (.text "a,b")]⟩]

/-- The rendered texts agree, and the debug texts do not. -/
theorem ambiguousStore_debugged :
    ambiguousStore.Grounded [1] ∧ ambiguousStore.Grounded [2] ∧
    ambiguousStore.rendered? (.plain (.sequence 1)) = some "a,b" ∧
    ambiguousStore.rendered? (.value (.active ⟨0, .sequence 2⟩)) = some "a,b" ∧
    ambiguousStore.debugged? (.plain (.sequence 1)) ≠
      ambiguousStore.debugged? (.value (.active ⟨0, .sequence 2⟩)) := by
  have first : ambiguousStore.Grounded (Item.plain (.sequence 1)).handles :=
    grounded_of_descending (by decide) (by decide) (by decide)
  have second : ambiguousStore.Grounded (Item.value (.active ⟨0, .sequence 2⟩)).handles :=
    grounded_of_descending (by decide) (by decide) (by decide)
  obtain ⟨outline, otherOutline, text, otherText, shown, otherShown, debugged, otherDebugged,
    same⟩ := debug_text_eq_iff_outline_eq first second
  refine ⟨first, second, by decide +kernel, by decide +kernel, ?_⟩
  rw [debugged, otherDebugged, ne_eq, Option.some.injEq, same]
  cases shown
  cases otherShown
  simp [Tree.outline, Tree.outlineAll]

end Store

end LooseValue
