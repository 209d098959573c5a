import Mathlib.Algebra.GroupWithZero.Nat
import LooseValue.Proofs.Resolution
import LooseValue.Proofs.Typing

/-!
# Laws of embedding and projection

Widening and narrowing are partial inverses at every merge, and so are `embed` and `project` along a
whole list: an item is projected to a position exactly if it is the embedding of some item of the
kind there. In closed form, embedding is the identity where one kind contributes alone, and else
moves the active position past the members of all earlier contributions.
-/

set_option autoImplicit false

namespace LooseValue

variable {typing : StoreTyping}

/-! ## Positions in a concatenation -/

namespace Alternative

theorem appendRight_eq (left : List Kind) (alternative : Alternative) :
    appendRight left alternative = ⟨left.length + alternative.position, alternative.payload⟩ := by
  induction left with
  | nil => simp [appendRight]
  | cons kind left ih =>
      rw [appendRight, ih, afterHead]
      simp only [List.length_cons, Alternative.mk.injEq, and_true]
      omega

theorem split_of_lt {left : List Kind} {alternative : Alternative}
    (inside : alternative.position < left.length) : alternative.split left = .inl alternative := by
  induction left generalizing alternative with
  | nil => exact absurd inside (Nat.not_lt_zero _)
  | cons kind left ih =>
      obtain ⟨position, payload⟩ := alternative
      cases position with
      | zero => rfl
      | succ position =>
          have earlier : split left ⟨position, payload⟩ = .inl ⟨position, payload⟩ :=
            ih (Nat.lt_of_succ_lt_succ inside)
          rw [split, earlier]
          rfl

theorem split_of_le {left : List Kind} {alternative : Alternative}
    (beyond : left.length ≤ alternative.position) :
    alternative.split left = .inr ⟨alternative.position - left.length, alternative.payload⟩ := by
  induction left generalizing alternative with
  | nil => rfl
  | cons kind left ih =>
      obtain ⟨position, payload⟩ := alternative
      cases position with
      | zero => exact absurd beyond (Nat.not_succ_le_zero _)
      | succ position =>
          have earlier : split left ⟨position, payload⟩ = .inr ⟨position - left.length, payload⟩ :=
            ih (Nat.le_of_succ_le_succ beyond)
          rw [split, earlier]
          simp

end Alternative

namespace Value

private theorem retag_appendLeft (value : Value) : value.retag .appendLeft = value := by
  cases value <;> rfl

private theorem retag_eq_undefined_iff {f : Alternative → Alternative} {value : Value} :
    value.retag f = .undefined ↔ value = .undefined := by
  cases value <;> simp [retag]

private theorem retag_appendRight_eq_active_iff {left : List Kind} {value : Value}
    {alternative : Alternative} (beyond : left.length ≤ alternative.position) :
    value.retag (.appendRight left) = .active alternative ↔
      value = .active ⟨alternative.position - left.length, alternative.payload⟩ := by
  cases value with
  | undefined => simp [retag]
  | active own =>
      obtain ⟨position, payload⟩ := own
      obtain ⟨target, targetPayload⟩ := alternative
      simp only [retag, Alternative.appendRight_eq, Value.active.injEq, Alternative.mk.injEq]
      simp only at beyond
      constructor
      · intro given
        obtain ⟨moved, same⟩ := given
        exact ⟨by omega, same⟩
      · intro given
        obtain ⟨moved, same⟩ := given
        exact ⟨by omega, same⟩

theorem HasKinds.appendLeft {left : List Kind} {value : Value}
    (typed : value.HasKinds typing left) (right : List Kind) :
    (value.retag .appendLeft).HasKinds typing (left ++ right) := by
  rw [retag_appendLeft]
  cases typed with
  | undefined => exact .undefined
  | active found typed =>
      have inside := (List.getElem?_eq_some_iff.mp found).1
      exact .active (by rw [List.getElem?_append_left inside, found]) typed

theorem HasKinds.appendRight {right : List Kind} {value : Value}
    (typed : value.HasKinds typing right) (left : List Kind) :
    (value.retag (.appendRight left)).HasKinds typing (left ++ right) := by
  cases typed with
  | undefined => exact .undefined
  | active found typed =>
      rw [retag, Alternative.appendRight_eq]
      refine .active ?_ typed
      rw [List.getElem?_append_right (Nat.le_add_right ..), Nat.add_sub_cancel_left, found]

theorem HasKinds.left_of_append {left right : List Kind} {alternative : Alternative}
    (typed : HasKinds typing (left ++ right) (.active alternative))
    (inside : alternative.position < left.length) :
    HasKinds typing left (.active alternative) := by
  obtain ⟨kind, found, typed⟩ := typed.inv
  rw [List.getElem?_append_left inside] at found
  exact .active found typed

theorem HasKinds.right_of_append {left right : List Kind} {alternative : Alternative}
    (typed : HasKinds typing (left ++ right) (.active alternative))
    (beyond : left.length ≤ alternative.position) :
    HasKinds typing right
      (.active ⟨alternative.position - left.length, alternative.payload⟩) := by
  obtain ⟨kind, found, typed⟩ := typed.inv
  rw [List.getElem?_append_right beyond] at found
  exact .active found typed

end Value

/-- Reading a value over the members of a type as an item of the type inverts `toValue`. -/
theorem Ty.ofValue?_eq_some_iff {type : Ty} {value : Value} {item : Item}
    (typed : value.HasKinds typing type.members) :
    type.ofValue? value = some item ↔ item.HasType typing type ∧ item.toValue = value := by
  constructor
  · intro read
    cases type with
    | kind kind =>
        cases typed with
        | undefined => cases read
        | @active position payload member found typed =>
            cases position with
            | zero =>
                cases found
                cases read
                exact ⟨.plain typed, rfl⟩
            | succ position => simp [Ty.members] at found
    | value kinds =>
        cases read
        exact ⟨.value rfl typed, rfl⟩
    | dynamic =>
        cases read
        exact ⟨.value rfl typed, rfl⟩
  · intro given
    obtain ⟨itemTyped, same⟩ := given
    subst same
    cases itemTyped with
    | plain _ => rfl
    | @value value type isValue _ =>
        cases type with
        | kind kind => cases isValue
        | value kinds => rfl
        | dynamic => rfl

/-! ## One merge -/

namespace Shape

theorem holds_widenLeft {left right : Shape} {result : Item} (held : left.Holds typing result) :
    (left.merge right).Holds typing (widenLeft left right result) := by
  cases held with
  | @some left _ typed =>
      cases right with
      | none => exact .some typed
      | some right => exact .some (.value rfl (typed.toValue.appendLeft right.members))

theorem holds_widenRight {left right : Shape} {result : Item} (held : right.Holds typing result) :
    (left.merge right).Holds typing (widenRight left right result) := by
  cases held with
  | @some right _ typed =>
      cases left with
      | none => exact .some typed
      | some left => exact .some (.value rfl (typed.toValue.appendRight left.members))

/-- A merged result narrows to the left exactly if it is widened from there. -/
theorem narrowLeft_eq_some_iff {left right : Shape} {merged result : Item}
    (held : (left.merge right).Holds typing merged) :
    narrowLeft left right merged = some result ↔
      left.Holds typing result ∧ widenLeft left right result = merged := by
  cases left with
  | none => simp [narrowLeft]
  | some left =>
      cases right with
      | none =>
          simp only [merge_none] at held
          simp only [narrowLeft, widenLeft, Option.some.injEq]
          constructor
          · intro same
            subst same
            exact ⟨held, rfl⟩
          · intro given
            obtain ⟨_, same⟩ := given
            exact same.symm
      | some right =>
          obtain ⟨value, rfl, typed⟩ := (holds_some.mp held).value_inv
          simp only [holds_some, widenLeft, Value.retag_appendLeft, Item.value.injEq]
          cases value with
          | undefined => exact Ty.ofValue?_eq_some_iff .undefined
          | active alternative =>
              by_cases inside : alternative.position < left.members.length
              · simp only [narrowLeft, Alternative.split_of_lt inside]
                exact Ty.ofValue?_eq_some_iff (typed.left_of_append inside)
              · have beyond := Nat.le_of_not_lt inside
                simp only [narrowLeft, Alternative.split_of_le beyond, reduceCtorEq, false_iff]
                intro given
                obtain ⟨resultTyped, same⟩ := given
                exact inside (same ▸ resultTyped.toValue).position_lt

theorem narrowRight_eq_some_iff {left right : Shape} {merged result : Item}
    (held : (left.merge right).Holds typing merged) :
    narrowRight left right merged = some result ↔
      right.Holds typing result ∧ widenRight left right result = merged := by
  cases left with
  | none =>
      simp only [none_merge] at held
      simp only [narrowRight, widenRight, Option.some.injEq]
      constructor
      · intro same
        subst same
        exact ⟨held, rfl⟩
      · intro given
        obtain ⟨_, same⟩ := given
        exact same.symm
  | some left =>
      cases right with
      | none => simp [narrowRight]
      | some right =>
          obtain ⟨value, rfl, typed⟩ := (holds_some.mp held).value_inv
          simp only [holds_some, widenRight, Item.value.injEq]
          cases value with
          | undefined =>
              rw [Value.retag_eq_undefined_iff]
              exact Ty.ofValue?_eq_some_iff .undefined
          | active alternative =>
              by_cases inside : alternative.position < left.members.length
              · simp only [narrowRight, Alternative.split_of_lt inside, reduceCtorEq, false_iff]
                intro given
                obtain ⟨_, same⟩ := given
                cases moved : result.toValue with
                | undefined => simp [moved, Value.retag] at same
                | active own =>
                    simp only [moved, Value.retag, Alternative.appendRight_eq,
                      Value.active.injEq] at same
                    subst same
                    exact absurd inside (Nat.not_lt.mpr (Nat.le_add_right ..))
              · have beyond := Nat.le_of_not_lt inside
                rw [Value.retag_appendRight_eq_active_iff beyond]
                simp only [narrowRight, Alternative.split_of_le beyond]
                exact Ty.ofValue?_eq_some_iff (typed.right_of_append beyond)

/-! ## A whole list -/

variable {contribution : Kind → Shape}

theorem holds_embed {kinds : List Kind} {position : Nat} {kind : Kind} {result : Item}
    (found : kinds[position]? = some kind) (held : (contribution kind).Holds typing result) :
    (resolve contribution kinds).Holds typing (embed contribution kinds position result) := by
  induction kinds generalizing position with
  | nil => cases found
  | cons head kinds ih =>
      cases position with
      | zero =>
          cases found
          exact holds_widenLeft held
      | succ position => exact holds_widenRight (ih found)

/-- A result of a list projects to a position exactly if it is embedded from there. -/
theorem project_eq_some_iff {kinds : List Kind} {position : Nat} {kind : Kind}
    {merged result : Item} (found : kinds[position]? = some kind)
    (held : (resolve contribution kinds).Holds typing merged) :
    project contribution kinds position merged = some result ↔
      (contribution kind).Holds typing result ∧
        embed contribution kinds position result = merged := by
  induction kinds generalizing position merged with
  | nil => cases found
  | cons head kinds ih =>
      cases position with
      | zero =>
          cases found
          exact narrowLeft_eq_some_iff held
      | succ position =>
          simp only [project, embed, Option.bind_eq_some_iff]
          constructor
          · intro given
            obtain ⟨rest, narrowed, projected⟩ := given
            obtain ⟨restHeld, widened⟩ := (narrowRight_eq_some_iff held).mp narrowed
            obtain ⟨resultHeld, embedded⟩ := (ih found restHeld).mp projected
            exact ⟨resultHeld, by rw [embedded, widened]⟩
          · intro given
            obtain ⟨resultHeld, widened⟩ := given
            have restHeld : (resolve contribution kinds).Holds typing
                (embed contribution kinds position result) := holds_embed found resultHeld
            exact ⟨_, (narrowRight_eq_some_iff held).mpr ⟨restHeld, widened⟩,
              (ih found restHeld).mpr ⟨resultHeld, rfl⟩⟩

/-! ## The closed form of an embedding -/

end Shape

/-- An item as a value whose active position is moved by an offset. A plain payload counts as the
alternative at position zero. -/
def Item.shift (offset : Nat) : Item → Item
  | .plain payload => .value (.active ⟨offset, payload⟩)
  | .value .undefined => .value .undefined
  | .value (.active ⟨position, payload⟩) => .value (.active ⟨offset + position, payload⟩)

theorem Item.shift_shift (outer inner : Nat) (item : Item) :
    (item.shift inner).shift outer = item.shift (outer + inner) := by
  rcases item with payload | (_ | ⟨position, payload⟩) <;> simp [shift, Nat.add_assoc]

private theorem Item.handles_shift (offset : Nat) (item : Item) :
    (item.shift offset).handles = item.handles := by
  rcases item with payload | (_ | ⟨position, payload⟩) <;> rfl

theorem Item.toValue_retag_appendLeft (item : Item) :
    Item.value (item.toValue.retag .appendLeft) = item.shift 0 := by
  rcases item with payload | (_ | ⟨position, payload⟩) <;>
    simp [shift, toValue, Value.retag, Alternative.appendLeft]

theorem Item.toValue_retag_appendRight (left : List Kind) (item : Item) :
    Item.value (item.toValue.retag (.appendRight left)) = item.shift left.length := by
  rcases item with payload | (_ | ⟨position, payload⟩) <;>
    simp [shift, toValue, Value.retag, Alternative.appendRight_eq]

namespace Shape

/-- The number of positions that the contributions before a position take. -/
def offset (contribution : Kind → Shape) (kinds : List Kind) (position : Nat) : Nat :=
  ((payloads contribution (kinds.take position)).map Ty.width).sum

variable {contribution : Kind → Shape}

@[simp] theorem offset_zero (kinds : List Kind) : offset contribution kinds 0 = 0 := rfl

private theorem offset_succ_of_none {kind : Kind} (absent : contribution kind = none)
    (kinds : List Kind)
    (position : Nat) :
    offset contribution (kind :: kinds) (position + 1) = offset contribution kinds position := by
  rw [offset, List.take_succ_cons, payloads_cons_of_none absent, offset]

private theorem offset_succ_of_some {kind : Kind} {payload : Ty}
    (present : contribution kind = some payload) (kinds : List Kind) (position : Nat) :
    offset contribution (kind :: kinds) (position + 1) =
      payload.width + offset contribution kinds position := by
  rw [offset, List.take_succ_cons, payloads_cons_of_some present, List.map_cons, List.sum_cons,
    offset]

/-- The contributions of a list, divided at a position that contributes. -/
theorem payloads_divided {kinds : List Kind} {position : Nat} {kind : Kind} {payload : Ty}
    (found : kinds[position]? = some kind) (present : contribution kind = some payload) :
    payloads contribution kinds =
      payloads contribution (kinds.take position) ++
        payload :: payloads contribution (kinds.drop (position + 1)) := by
  obtain ⟨inside, same⟩ := List.getElem?_eq_some_iff.mp found
  have divided : kinds = kinds.take position ++ kind :: kinds.drop (position + 1) := by
    rw [← same, List.getElem_cons_drop, List.take_append_drop]
  calc payloads contribution kinds
      = payloads contribution (kinds.take position ++ kind :: kinds.drop (position + 1)) := by
        rw [← divided]
    _ = _ := by
        rw [payloads, List.filterMap_append, List.filterMap_cons_some present, payloads, payloads]

theorem payloads_eq_of_single {kinds : List Kind} {position : Nat} {kind : Kind} {payload : Ty}
    (found : kinds[position]? = some kind) (present : contribution kind = some payload)
    (single : (payloads contribution kinds).length = 1) : payloads contribution kinds = [payload] := by
  obtain ⟨only, same⟩ := List.length_eq_one_iff.mp single
  have member : payload ∈ payloads contribution kinds := by
    rw [payloads_divided found present]
    exact List.mem_append_right _ List.mem_cons_self
  rw [same] at member ⊢
  rw [List.mem_singleton.mp member]

private theorem offset_eq_zero_of_single {kinds : List Kind} {position : Nat} {kind : Kind}
    {payload : Ty}
    (found : kinds[position]? = some kind) (present : contribution kind = some payload)
    (single : (payloads contribution kinds).length = 1) :
    offset contribution kinds position = 0 := by
  have divided := payloads_divided found present
  have none_before : payloads contribution (kinds.take position) = [] := by
    rw [divided, List.length_append, List.length_cons] at single
    exact List.eq_nil_of_length_eq_zero (by omega)
  rw [offset, none_before]
  rfl

private theorem resolve_isSome_of_contribution {kinds : List Kind} {position : Nat} {kind : Kind}
    {payload : Ty} (found : kinds[position]? = some kind)
    (present : contribution kind = some payload) :
    ∃ type, resolve contribution kinds = some type := by
  apply Option.ne_none_iff_exists'.mp
  intro absent
  rw [resolve_eq_none_iff, payloads_divided found present] at absent
  cases List.append_eq_nil_iff.mp absent with
  | intro _ impossible => cases impossible

/-- The only contribution of a list is embedded as it is, and any other past the positions of all
earlier ones. Nothing is assumed of the item. -/
theorem embed_eq {kinds : List Kind} {position : Nat} {kind : Kind} {payload : Ty}
    (found : kinds[position]? = some kind) (present : contribution kind = some payload)
    (item : Item) :
    embed contribution kinds position item =
      if (payloads contribution kinds).length = 1 then item
      else item.shift (offset contribution kinds position) := by
  induction kinds generalizing position with
  | nil => cases found
  | cons head kinds ih =>
      cases position with
      | zero =>
          cases found
          rw [embed, present, payloads_cons_of_some present, offset_zero]
          cases rest : resolve contribution kinds with
          | none =>
              have alone := resolve_eq_none_iff.mp rest
              simp [widenLeft, alone]
          | some type =>
              have others := payloads_ne_nil_of_resolve rest
              simp [widenLeft, others, Item.toValue_retag_appendLeft]
      | succ position =>
          have tail : kinds[position]? = some kind := found
          obtain ⟨type, resolved⟩ := resolve_isSome_of_contribution tail present
          rw [embed, resolved, ih tail]
          cases contributed : contribution head with
          | none =>
              rw [payloads_cons_of_none contributed, offset_succ_of_none contributed]
              rfl
          | some first =>
              have others := payloads_ne_nil_of_resolve resolved
              rw [payloads_cons_of_some contributed, offset_succ_of_some contributed]
              simp only [widenRight, Item.toValue_retag_appendRight, List.length_cons,
                Nat.add_eq_right, List.length_eq_zero_iff, others, if_false, Ty.width]
              split
              · next single =>
                  rw [offset_eq_zero_of_single tail present single, Nat.add_zero]
              · rw [Item.shift_shift]

theorem handles_widenLeft (left right : Shape) (item : Item) :
    (widenLeft left right item).handles = item.handles := by
  cases left <;> cases right <;>
    simp [widenLeft, Item.toValue_retag_appendLeft, Item.handles_shift]

theorem handles_widenRight (left right : Shape) (item : Item) :
    (widenRight left right item).handles = item.handles := by
  cases left <;> cases right <;>
    simp [widenRight, Item.toValue_retag_appendRight, Item.handles_shift]

theorem handles_embed (contribution : Kind → Shape) (kinds : List Kind) (position : Nat)
    (item : Item) : (embed contribution kinds position item).handles = item.handles := by
  induction kinds generalizing position with
  | nil => rfl
  | cons head kinds ih =>
      cases position with
      | zero => exact handles_widenLeft ..
      | succ position => rw [embed, handles_widenRight, ih]

end Shape

end LooseValue
