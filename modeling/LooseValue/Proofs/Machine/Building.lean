import LooseValue.Machine.Literal
import LooseValue.Proofs.Machine.Counting
import LooseValue.Proofs.Store.Soundness

/-!
# Soundness of building

Whatever a literal or a default makes in a sound store has the type that it was made for, and the
store in which it exists is sound with the handles of the new item as further roots. The roots that
there were before keep their typing; they include the handles of all named items, so that a copy of
one of these is as good as a new item.
-/

set_option autoImplicit false

namespace LooseValue

variable {typing : StoreTyping} {roots : List Address} {store : Store} {allocator : Allocator}
  {registers : List (String × Register)}

/-- A store in which something with the given handles was made, on top of the roots. -/
def Store.Made (typing : StoreTyping) (roots handles : List Address) (store : Store)
    (typed : StoreTyping → Prop) : Prop :=
  ∃ extended : StoreTyping, (∀ root ∈ roots, extended root = typing root) ∧
    store.Sound extended (handles ++ roots) ∧ typed extended

private theorem Store.Made.of_sound {handles : List Address} {typed : StoreTyping → Prop}
    (sound : store.Sound typing (handles ++ roots)) (done : typed typing) :
    store.Made typing roots handles typed :=
  ⟨typing, fun _ _ => rfl, sound, done⟩

theorem Store.Made.imp {handles : List Address} {typed weaker : StoreTyping → Prop}
    (made : store.Made typing roots handles typed) (weaken : ∀ typing, typed typing → weaker typing) :
    store.Made typing roots handles weaker := by
  obtain ⟨extended, agree, sound, done⟩ := made
  exact ⟨extended, agree, sound, weaken extended done⟩

/-- A block of what was made takes its handles over. -/
theorem Store.Made.allocate {block : Block} {kind : Kind}
    (made : store.Made typing roots block.handles fun typing => block.HasKind typing kind)
    (allocator : Allocator) :
    (store.allocate allocator block).2.Made typing roots [(store.allocate allocator block).1]
      fun typing => typing (store.allocate allocator block).1 = some kind := by
  obtain ⟨extended, agree, sound, typed⟩ := made
  obtain ⟨further, agreeFurther, known, soundFurther⟩ := sound.allocate typed allocator
  refine ⟨further, ?_, soundFurther, known⟩
  intro root member
  rw [agreeFurther root (sound.counted.mem_addresses (List.mem_append_right _ member)),
    agree root member]

/-- Named items whose handles are among the roots. -/
structure Held (typing : StoreTyping) (roots : List Address) (registers : List (String × Register)) :
    Prop where
  typed : ∀ named ∈ registers, named.2.item.HasType typing named.2.type
  rooted : ∀ named ∈ registers, ∀ handle ∈ named.2.item.handles, handle ∈ roots

theorem Held.congr {extended : StoreTyping} (held : Held typing roots registers)
    (agree : ∀ root ∈ roots, extended root = typing root) (more : List Address) :
    Held extended (more ++ roots) registers where
  typed := by
    intro named member
    refine (held.typed named member).congr ?_
    intro handle inside
    exact agree handle (held.rooted named member handle inside)
  rooted := by
    intro named member handle inside
    exact List.mem_append_right _ (held.rooted named member handle inside)

theorem Ty.kinds?_eq_some_iff {type : Ty} {kinds : List Kind} :
    type.kinds? = some kinds ↔ type.isValue = true ∧ type.members = kinds := by
  cases type <;> simp [Ty.kinds?, Ty.isValue, Ty.members]

/-! ## Defaults -/

mutual

private theorem Ty.makeDefault_made : ∀ (type : Ty) {store : Store}, store.Sound typing roots →
    (type.makeDefault allocator store).2.Made typing roots
      (type.makeDefault allocator store).1.handles
      fun typing => (type.makeDefault allocator store).1.HasType typing type
  | .kind kind, _, sound => (Kind.makeDefault_made kind sound).imp fun _ typed => .plain typed
  | .value _, _, sound => .of_sound sound (.value rfl .undefined)
  | .dynamic, _, sound => .of_sound sound (.value rfl .undefined)

private theorem Kind.makeDefault_made : ∀ (kind : Kind) {store : Store}, store.Sound typing roots →
    (kind.makeDefault allocator store).2.Made typing roots
      (kind.makeDefault allocator store).1.handles
      fun typing => (kind.makeDefault allocator store).1.HasKind typing kind
  | .boolean, _, sound => .of_sound sound .boolean
  | .number, _, sound => .of_sound sound .number
  | .text, _, sound => .of_sound sound .text
  | .shared payload, _, sound =>
      have content := (Ty.makeDefault_made payload sound).imp fun _ typed => Block.HasKind.cell typed
      (Store.Made.allocate content allocator).imp fun _ known => .shared known
  | .sequence payload, store, sound =>
      have empty : store.Made typing roots (Block.buffer []).handles
          fun typing => (Block.buffer []).HasKind typing (.sequence payload) :=
        .of_sound sound (.buffer fun _ member => (List.not_mem_nil member).elim)
      (empty.allocate allocator).imp fun _ known => .sequence known

end

/-! ## Literals -/

namespace Literal

/-- What a literal of each form makes, of which type and out of which parts. -/
inductive Makes (allocator : Allocator) (registers : List (String × Register)) (store : Store) :
    Literal → Ty → Item → Store → Prop where
  | boolean {b : Bool} : Makes allocator registers store
      (.boolean b) (.kind .boolean) (.plain (.boolean b)) store
  | number {x : Binary64} : Makes allocator registers store
      (.number x) (.kind .number) (.plain (.number x)) store
  | text {s : String} : Makes allocator registers store
      (.text s) (.kind .text) (.plain (.text s)) store
  | shared {referent : Literal} {payload : Ty} {content : Item} {middle : Store} :
      referent.build allocator registers payload store = some (content, middle) →
      Makes allocator registers store (.shared referent) (.kind (.shared payload))
        (.plain (.shared (middle.allocate allocator (.cell content)).1))
        (middle.allocate allocator (.cell content)).2
  | sequence {literals : List Literal} {payload : Ty} {items : List Item} {middle : Store} :
      buildAll allocator registers literals payload store = some (items, middle) →
      Makes allocator registers store (.sequence literals) (.kind (.sequence payload))
        (.plain (.sequence (middle.allocate allocator (.buffer items)).1))
        (middle.allocate allocator (.buffer items)).2
  | undefined {type : Ty} : type.isValue = true →
      Makes allocator registers store .undefined type (.value .undefined) store
  | active {position : Nat} {literal : Literal} {type : Ty} {kinds : List Kind} {kind : Kind}
      {payload : Payload} {after : Store} : type.kinds? = some kinds →
      kinds[position]? = some kind →
      literal.build allocator registers (.kind kind) store = some (.plain payload, after) →
      Makes allocator registers store (.active position literal) type
        (.value (.active ⟨position, payload⟩)) after
  | default {type : Ty} : Makes allocator registers store .default type
      (type.makeDefault allocator store).1 (type.makeDefault allocator store).2
  | copy {name : String} {register : Register} : registers.lookup name = some register →
      Makes allocator registers store (.copy name) register.type register.item
        (store.retain register.item.handles)

theorem makes_of_build {literal : Literal} {type : Ty} {after : Store} {item : Item}
    (built : literal.build allocator registers type store = some (item, after)) :
    literal.Makes allocator registers store type item after := by
  revert built
  fun_cases Literal.build allocator registers literal type store with
  | case2 | case4 | case6 | case7 | case9 | case10 | case12 | case14 | case15 | case17 | case19
  | case21 =>
      intro built
      cases built
  | case1 =>
      intro built
      cases built
      exact .boolean
  | case3 =>
      intro built
      cases built
      exact .number
  | case5 =>
      intro built
      cases built
      exact .text
  | case8 referent payload store content middle first cell last allocated =>
      intro built
      cases built
      have made : Makes allocator registers store _ _ _ _ := .shared first
      rwa [allocated] at made
  | case11 literals payload store items middle first buffer last allocated =>
      intro built
      cases built
      have made : Makes allocator registers store _ _ _ _ := .sequence first
      rwa [allocated] at made
  | case13 type store isValue =>
      intro built
      cases built
      exact .undefined isValue
  | case16 position literal type store kind fits payload last first =>
      intro built
      cases built
      obtain ⟨kinds, isValue, found⟩ := Option.bind_eq_some_iff.mp fits
      exact .active isValue found first
  | case18 type store =>
      intro built
      have made : Makes allocator registers store .default type _ _ := .default
      rwa [Option.some.inj built] at made
  | case20 name store register found =>
      intro built
      cases built
      exact .copy found

mutual

theorem build_made : ∀ (literal : Literal) {type : Ty} {store after : Store} {item : Item}
    {typing : StoreTyping} {roots : List Address}, store.Sound typing roots →
    Held typing roots registers →
    literal.build allocator registers type store = some (item, after) →
    after.Made typing roots item.handles fun typing => item.HasType typing type
  | .boolean _, _, _, _, _, _, _, sound, _, built => by
      cases makes_of_build built
      exact .of_sound sound (.plain .boolean)
  | .number _, _, _, _, _, _, _, sound, _, built => by
      cases makes_of_build built
      exact .of_sound sound (.plain .number)
  | .text _, _, _, _, _, _, _, sound, _, built => by
      cases makes_of_build built
      exact .of_sound sound (.plain .text)
  | .shared referent, _, _, _, _, _, _, sound, held, built => by
      cases makes_of_build built with
      | shared first =>
          have content := (build_made referent sound held first).imp fun _ => Block.HasKind.cell
          exact (Store.Made.allocate content allocator).imp fun _ known => .plain (.shared known)
  | .sequence literals, _, _, _, _, _, _, sound, held, built => by
      cases makes_of_build built with
      | sequence first =>
          have items := (buildAll_made literals sound held first).imp fun _ => Block.HasKind.buffer
          exact (Store.Made.allocate items allocator).imp fun _ known => .plain (.sequence known)
  | .undefined, _, _, _, _, _, _, sound, _, built => by
      cases makes_of_build built with
      | undefined isValue => exact .of_sound sound (.value isValue .undefined)
  | .active _ literal, _, _, _, _, _, _, sound, held, built => by
      cases makes_of_build built with
      | active listed found first =>
          obtain ⟨isValue, rfl⟩ := Ty.kinds?_eq_some_iff.mp listed
          refine (build_made literal sound held first).imp ?_
          intro typing typed
          cases typed with
          | plain typed => exact .value isValue (.active found typed)
  | .default, type, _, _, _, _, _, sound, _, built => by
      cases makes_of_build built
      exact Ty.makeDefault_made type sound
  | .copy _, _, _, _, _, _, _, sound, held, built => by
      cases makes_of_build built with
      | copy found =>
          have named := mem_of_lookup found
          refine .of_sound (sound.retain ?_) (held.typed _ named)
          intro handle inside
          exact sound.counted.mem_addresses (held.rooted _ named handle inside)

private theorem buildAll_made : ∀ (literals : List Literal) {type : Ty} {store after : Store}
    {items : List Item} {typing : StoreTyping} {roots : List Address}, store.Sound typing roots →
    Held typing roots registers →
    buildAll allocator registers literals type store = some (items, after) →
    after.Made typing roots (items.flatMap Item.handles)
      fun typing => ∀ item ∈ items, item.HasType typing type
  | [], _, _, _, _, _, _, sound, _, built => by
      cases built
      exact .of_sound sound fun _ member => (List.not_mem_nil member).elim
  | literal :: literals, _, _, _, _, _, _, sound, held, built => by
      simp only [buildAll] at built
      split at built
      · cases built
      · next item middle first =>
          split at built
          · cases built
          · next rest last others =>
              cases built
              obtain ⟨extended, agree, soundFirst, typedFirst⟩ := build_made literal sound held first
              obtain ⟨further, agreeFurther, soundRest, typedRest⟩ :=
                buildAll_made literals soundFirst (held.congr agree item.handles) others
              refine ⟨further, ?_, ?_, ?_⟩
              · intro root member
                rw [agreeFurther root (List.mem_append_right _ member), agree root member]
              · rw [List.flatMap_cons, List.append_assoc]
                exact soundRest.perm (List.perm_append_comm_assoc ..)
              · intro made member
                rcases List.mem_cons.mp member with rfl | later
                · refine typedFirst.congr ?_
                  intro handle inside
                  exact agreeFurther handle (List.mem_append_left _ inside)
                · exact typedRest made later

end

theorem buildPayload_made {literal : Literal} {kind : Kind} {after : Store} {payload : Payload}
    (sound : store.Sound typing roots) (held : Held typing roots registers)
    (built : literal.buildPayload allocator registers kind store = some (payload, after)) :
    after.Made typing roots payload.handles fun typing => payload.HasKind typing kind := by
  unfold buildPayload at built
  split at built
  · next own last first =>
      cases built
      refine (build_made literal sound held first).imp ?_
      intro typing typed
      cases typed with
      | plain typed => exact typed
  · cases built

end Literal

end LooseValue
