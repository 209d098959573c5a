import LooseValue.Machine.Op
import LooseValue.Proofs.Access.Rendering

/-!
# What positions do not show

A list of kinds observes an alternative by walking down to the active position, where the kind answers
for its payload: with its name, whether there are elements, truthiness, a primitive and two texts.
Appending a list and merging a shape move positions about. They leave alone which kind stands at the
active position and which payload is there, so every observation stays, and with the primitive every
comparison.
-/

set_option autoImplicit false

namespace LooseValue

/-- Everything that can be observed of an item, but for the active position. -/
structure Observation where
  kindName : String
  /-- Nothing where no kind is active. -/
  indexable : Option Bool
  truthy : Bool
  primitive : Option (Primitive Address)
  rendered : Option String
  debugged : Option String
  deriving DecidableEq

def Store.observation (store : Store) (item : Item) : Observation where
  kindName := item.toValue.kindName
  indexable := item.payload?.map Payload.indexable
  truthy := item.toValue.truthy
  primitive := item.toValue.primitive?
  rendered := store.rendered? item
  debugged := store.debugged? item

namespace Kind

def name : Kind → String
  | .boolean => "boolean"
  | .number => "number"
  | .text => "string"
  | .shared _ => "shared"
  | .sequence _ => "sequence"

def indexable : Kind → Bool
  | .sequence _ => true
  | _ => false

/-- What a kind answers for a payload of its own. The name and the elements are matters of the kind,
whatever the payload. -/
def observation (store : Store) (kind : Kind) (payload : Payload) : Observation :=
  { store.observation (.plain payload) with
    kindName := kind.name
    indexable := some kind.indexable }

end Kind

/-- What a list of kinds shows of an alternative: the head answers for position zero, the tail for
the positions behind it. -/
def Alternative.observed (store : Store) : List Kind → Alternative → Option Observation
  | [], _ => none
  | kind :: _, ⟨0, payload⟩ => some (kind.observation store payload)
  | _ :: kinds, ⟨position + 1, payload⟩ => observed store kinds ⟨position, payload⟩

/-- What a value over a list of kinds shows. The list is asked where an alternative is active. -/
def Value.observed (store : Store) (kinds : List Kind) : Value → Option Observation
  | .undefined => some (store.observation (.value .undefined))
  | .active alternative => alternative.observed store kinds

/-- What a shape shows of a result: its type answers for it with its list of members, which for a
plain kind is that kind alone. -/
def Shape.observed (store : Store) (shape : Shape) (result : Item) : Option Observation :=
  shape.bind fun type => result.toValue.observed store type.members

/-! ## Walks down a list -/

namespace Alternative

variable (store : Store)

private theorem observed_afterHead (kind : Kind) (kinds : List Kind) (x : Alternative) :
    x.afterHead.observed store (kind :: kinds) = x.observed store kinds := rfl

private theorem observed_appendLeft {left : List Kind} {x : Alternative}
    (inside : x.position < left.length)
    (right : List Kind) : x.appendLeft.observed store (left ++ right) = x.observed store left := by
  unfold appendLeft
  induction left generalizing x with
  | nil => exact absurd inside (Nat.not_lt_zero _)
  | cons kind left ih =>
      obtain ⟨position, payload⟩ := x
      cases position with
      | zero => rfl
      | succ position =>
          have earlier : position < left.length := Nat.lt_of_succ_lt_succ inside
          exact ih (x := ⟨position, payload⟩) earlier

private theorem observed_of_getElem? {kinds : List Kind} {position : Nat} {kind : Kind}
    (found : kinds[position]? = some kind) (payload : Payload) :
    observed store kinds ⟨position, payload⟩ = some (kind.observation store payload) := by
  induction kinds generalizing position with
  | nil => cases found
  | cons head kinds ih =>
      cases position with
      | zero =>
          cases found
          rfl
      | succ position => exact ih found

private theorem observed_appendRight (left right : List Kind) (x : Alternative) :
    (x.appendRight left).observed store (left ++ right) = x.observed store right := by
  induction left with
  | nil => rfl
  | cons kind left ih => rw [appendRight, List.cons_append, observed_afterHead, ih]

end Alternative

/-! ## Payloads of a kind -/

section Typed

variable {typing : StoreTyping} {kind : Kind} {payload : Payload}

private theorem Payload.HasKind.observation (typed : payload.HasKind typing kind) (store : Store) :
    kind.observation store payload = store.observation (.plain payload) := by
  cases typed <;> rfl

private theorem Store.observation_active (store : Store) (position : Nat) (payload : Payload) :
    store.observation (.value (.active ⟨position, payload⟩)) = store.observation (.plain payload) := by
  have rendered : store.rendered? (.value (.active ⟨position, payload⟩)) =
      store.rendered? (.plain payload) := by
    simp [rendered?_eq, tree?, Item.tree?, Function.comp_def, Tree.render]
  have debugged : store.debugged? (.value (.active ⟨position, payload⟩)) =
      store.debugged? (.plain payload) := by
    simp [debugged?_eq, tree?, Item.tree?, Function.comp_def, Tree.debug]
  rw [observation, rendered, debugged]
  rfl

private theorem Alternative.observed_of_hasKinds {kinds : List Kind} {x : Alternative}
    (typed : Value.HasKinds typing kinds (.active x)) (store : Store) :
    x.observed store kinds = some (store.observation (.value (.active x))) := by
  obtain ⟨position, payload⟩ := x
  obtain ⟨kind, found, own⟩ := typed.inv
  rw [Alternative.observed_of_getElem? store found, store.observation_active, own.observation]

private theorem Value.HasKinds.observed {kinds : List Kind} {value : Value}
    (typed : value.HasKinds typing kinds) (store : Store) :
    value.observed store kinds = some (store.observation (.value value)) := by
  cases value with
  | undefined => rfl
  | active x => exact Alternative.observed_of_hasKinds typed store

end Typed

/-! ## Merged shapes -/

namespace Store

variable (store : Store)

private theorem observation_toValue (item : Item) :
    store.observation (.value item.toValue) = store.observation item := by
  cases item with
  | plain payload => exact store.observation_active 0 payload
  | value value => rfl

private theorem observation_shift (offset : Nat) (item : Item) :
    store.observation (item.shift offset) = store.observation item := by
  rcases item with payload | (_ | ⟨position, payload⟩)
  · exact store.observation_active offset payload
  · rfl
  · exact (store.observation_active _ payload).trans (store.observation_active _ payload).symm

private theorem observation_widenLeft (left right : Shape) (item : Item) :
    store.observation (Shape.widenLeft left right item) = store.observation item := by
  cases left <;> cases right <;>
    simp [Shape.widenLeft, Item.toValue_retag_appendLeft, observation_shift]

private theorem observation_widenRight (left right : Shape) (item : Item) :
    store.observation (Shape.widenRight left right item) = store.observation item := by
  cases left <;> cases right <;>
    simp [Shape.widenRight, Item.toValue_retag_appendRight, observation_shift]

end Store

namespace Shape

variable {typing : StoreTyping} {left right : Shape} {result : Item}

private theorem Holds.observed {shape : Shape} (held : shape.Holds typing result) (store : Store) :
    shape.observed store result = .some (store.observation result) := by
  cases held with
  | some typed =>
      have walked := typed.toValue.observed store
      rw [store.observation_toValue] at walked
      exact walked

/-- The walk down the merged list ends at the kind that the left side walks to. -/
theorem Holds.observed_widenLeft (held : left.Holds typing result) (store : Store) :
    (left.merge right).observed store (left.widenLeft right result) =
      left.observed store result := by
  rw [(holds_widenLeft held).observed, held.observed, store.observation_widenLeft]

private theorem Holds.observed_widenRight (held : right.Holds typing result) (store : Store) :
    (left.merge right).observed store (left.widenRight right result) =
      right.observed store result := by
  rw [(holds_widenRight held).observed, held.observed, store.observation_widenRight]

end Shape

/-! ## Comparison -/

/-- Two values that compare alike with every value and with every scalar, in both orders. -/
structure Value.ComparesAs (a b : Value) : Prop where
  forward : ∀ other : Value, a.looseEq other = b.looseEq other
  backward : ∀ other : Value, other.looseEq a = other.looseEq b
  scalar : ∀ scalar : Scalar,
    a.equalsPrimitive (.ofScalar scalar) = b.equalsPrimitive (.ofScalar scalar)

private theorem Value.comparesAs_of_primitive? {a b : Value} (same : a.primitive? = b.primitive?) :
    a.ComparesAs b where
  forward other := by rw [looseEq, looseEq, same]
  backward other := by rw [looseEq, looseEq, same]
  scalar scalar := by rw [equalsPrimitive, equalsPrimitive, same]

/-- An alternative keeps its observations when a list is appended on either side: those that the list
makes, and those of its value, which are the same for a payload of the kind in the list. A result of
either side of a merge keeps them when it is widened: the merged shape walks its own list and shows
what the side shows, undefined included. As a value or as it stands, the widened result compares as
before. -/
theorem retagging_invisible (store : Store) :
    (∀ (left right : List Kind) (x : Alternative),
      (x.position < left.length →
        x.appendLeft.observed store (left ++ right) = x.observed store left) ∧
      (x.appendRight left).observed store (left ++ right) = x.observed store right ∧
      store.observation (.value (.active x.appendLeft)) = store.observation (.value (.active x)) ∧
      store.observation (.value (.active (x.appendRight left))) =
        store.observation (.value (.active x))) ∧
    (∀ (typing : StoreTyping) (kinds : List Kind) (x : Alternative),
      Value.HasKinds typing kinds (.active x) →
      x.observed store kinds = some (store.observation (.value (.active x)))) ∧
    (∀ (typing : StoreTyping) (left right : Shape) (x : Item),
      (left.Holds typing x →
        (left.merge right).Holds typing (left.widenLeft right x) ∧
        (left.merge right).observed store (left.widenLeft right x) = left.observed store x ∧
        left.observed store x = some (store.observation x)) ∧
      (right.Holds typing x →
        (left.merge right).Holds typing (left.widenRight right x) ∧
        (left.merge right).observed store (left.widenRight right x) = right.observed store x ∧
        right.observed store x = some (store.observation x))) ∧
    ∀ (left right : Shape) (x widened : Item),
      widened = left.widenLeft right x ∨ widened = left.widenRight right x →
      store.observation widened = store.observation x ∧
        store.observation (.value widened.toValue) = store.observation x ∧
        widened.toValue.ComparesAs x.toValue := by
  refine ⟨?_, ?_, ?_, ?_⟩
  · intro left right x
    refine ⟨fun inside => x.observed_appendLeft store inside right,
      x.observed_appendRight store left right, rfl, ?_⟩
    rw [Alternative.appendRight_eq, store.observation_active, ← store.observation_active x.position]
  · intro typing kinds x typed
    exact typed.observed store
  · intro typing left right x
    constructor
    · intro held
      exact ⟨Shape.holds_widenLeft held, held.observed_widenLeft store, held.observed store⟩
    · intro held
      exact ⟨Shape.holds_widenRight held, held.observed_widenRight store, held.observed store⟩
  · intro left right x widened isWidened
    have same : store.observation widened = store.observation x := by
      rcases isWidened with rfl | rfl
      · exact store.observation_widenLeft left right x
      · exact store.observation_widenRight left right x
    refine ⟨same, (store.observation_toValue widened).trans same, ?_⟩
    exact Value.comparesAs_of_primitive? (congrArg Observation.primitive same)

def repeatedKinds : List Kind := [.text, .number, .sequence (.value [.number, .text])]

def numberedStore : Store where
  entries := [⟨1, 1, .buffer [.value (.active ⟨0, .number (.ofInt 5)⟩), .value .undefined]⟩]

def numberedTyping : StoreTyping := fun _ => some (.sequence (.value [.number, .text]))

def numberedObservation : Observation :=
  ⟨"sequence", some true, true, some (.object 1), some "5,undefined", some "[5, undefined]"⟩

/-- A sequence moves behind two further kinds, of which its own list has the like: the longer list
shows it as before, and so does the merge of the two lists as shapes. -/
theorem numberedStore_observed :
    Value.HasKinds numberedTyping repeatedKinds (.active ⟨2, .sequence 1⟩) ∧
    Alternative.observed numberedStore ([.number, .text] ++ repeatedKinds) ⟨4, .sequence 1⟩ =
      some numberedObservation ∧
    Shape.observed numberedStore
        (Shape.merge (some (.value [.number, .text])) (some (.value repeatedKinds)))
        (.value (.active ⟨4, .sequence 1⟩)) =
      some numberedObservation ∧
    (Value.active ⟨4, .sequence 1⟩).ComparesAs (.active ⟨2, .sequence 1⟩) := by
  obtain ⟨appended, listed, merged, widened⟩ := retagging_invisible numberedStore
  have typed : Value.HasKinds numberedTyping repeatedKinds (.active ⟨2, .sequence 1⟩) :=
    .active rfl (.sequence rfl)
  have shown : numberedStore.observation (.value (.active ⟨2, .sequence 1⟩)) =
      numberedObservation := by
    decide +kernel
  have held : Shape.Holds numberedTyping (some (.value repeatedKinds))
      (.value (.active ⟨2, .sequence 1⟩)) := .some (.value rfl typed)
  obtain ⟨_, walked, answered⟩ :=
    (merged numberedTyping (some (.value [.number, .text])) _ _).2 held
  refine ⟨typed, ?_, ?_, ?_⟩
  · rw [← shown, ← listed _ _ _ typed]
    exact (appended [.number, .text] repeatedKinds ⟨2, .sequence 1⟩).2.1
  · rw [← shown, ← answered]
    exact walked
  · exact (widened (some (.value [.number, .text])) (some (.value repeatedKinds))
      (.value (.active ⟨2, .sequence 1⟩)) _ (.inr rfl)).2.2

end LooseValue
