import LooseValue.Event
import LooseValue.Tree.Text

/-!
# Answers

What an operation answers. No address occurs in an answer: items are shown as trees and texts, and
compound primitives as objects without identity.
-/

set_option autoImplicit false

namespace LooseValue

/-- The tree of an item, or nothing if its storage contains itself. -/
abbrev Content : Type := Option Tree

structure ValueTexts where
  rendered : String
  debug : String
  /-- The text that shows the active position, if there is one. -/
  alternative : Option String

def ValueTexts.ofTree (tree : Tree) : ValueTexts where
  rendered := String.ofList tree.render
  debug := String.ofList tree.debug
  alternative :=
    match tree with
    | .active position payload => some (String.ofList (Tree.alternativeText position payload))
    | _ => none

/-- Everything that can be observed of a value. -/
structure Summary where
  kindName : String
  isUndefined : Bool
  truthy : Bool
  primitive : Option (Primitive Unit)
  indexable : Option Bool
  texts : Option ValueTexts

def Summary.ofValue (store : Store) (value : Value) : Summary where
  kindName := value.kindName
  isUndefined := value.isUndefined
  truthy := value.truthy
  primitive := value.primitive?.map fun primitive => primitive.map fun _ => ()
  indexable := value.payload?.map Payload.indexable
  texts := (store.tree? (.value value)).map ValueTexts.ofTree

structure PayloadTexts where
  rendered : String
  debug : String
  detail : String
  /-- The detailed text with the items of sequences on lines of their own. -/
  detailLines : String

def PayloadTexts.ofTree (tree : Tree) : PayloadTexts where
  rendered := String.ofList tree.render
  debug := String.ofList tree.debug
  detail := String.ofList tree.detail
  detailLines := String.ofList tree.detailLines

/-- Everything that can be observed of a plain payload. -/
structure Profile where
  kindName : String
  indexable : Bool
  truthy : Bool
  primitive : Primitive Unit
  hasReferent : Bool
  hasElement : Bool
  texts : Option PayloadTexts

def Profile.ofPayload (store : Store) (payload : Payload) : Profile where
  kindName := payload.kindName
  indexable := payload.indexable
  truthy := payload.truthy
  primitive := payload.primitive.map fun _ => ()
  hasReferent :=
    match payload with
    | .shared _ => true
    | _ => false
  hasElement := payload.indexable
  texts := (store.tree? (.plain payload)).map PayloadTexts.ofTree

/-- What an operation answers when it succeeds. -/
inductive Answer where
  | done
  /-- An item that was made, copied or moved out. -/
  | item (type : Ty) (content : Content)
  /-- The item that was acted on, as it is afterwards. -/
  | content (content : Content)
  /-- The payload at a position, if that was the active one. -/
  | selection (found : Option (Kind × Content))
  /-- The payload that was overwritten, if there was one, and the value as it is afterwards. -/
  | overwritten (previous : Option Content) (now : Content)
  /-- An equality, asked from both sides. -/
  | comparison (forward backward : Bool)
  | truth (b : Bool)
  | count (n : Nat)
  | length (n : Nat)
  | contents (contents : List Content)
  | summary (summary : Summary)
  | profile (profile : Profile)

/-- Why an operation did not succeed. -/
inductive Failure where
  | access (error : AccessError)
  /-- No kind of the list supports the access, whatever the value holds. -/
  | unresolved
  /-- A name or a literal does not fit the operation. -/
  | malformed

/-- What an operation reports: its outcome and the events emitted on the way. -/
structure Report where
  outcome : Except Failure Answer
  events : List Event

/-- The report of an operation that succeeds and emits nothing. -/
def Report.answer (answer : Answer) : Report := ⟨.ok answer, []⟩

/-- The report of an operation that fails and emits nothing. -/
def Report.failure (failure : Failure) : Report := ⟨.error failure, []⟩

end LooseValue
