import LooseValue.Text.Quoted
import LooseValue.Tree

/-!
# Texts of trees

The rendered text is the loose form: texts stand as they are, references are invisible and the
items of a sequence are divided by commas. The debug text quotes texts, marks references and
brackets sequences, so it shows the structure. The detailed text is that of a plain payload seen on
its own; it spells numbers in detail, and where it meets a value it goes on as the debug text.
-/

set_option autoImplicit false

namespace LooseValue

/-- The lines of a text moved four columns to the right. -/
def indented (text : List Char) : List Char :=
  List.replicate 4 ' ' ++
    text.flatMap fun c => if c = '\n' then '\n' :: List.replicate 4 ' ' else [c]

def bracketed (texts : List (List Char)) : List Char := '[' :: ([',', ' '].intercalate texts ++ [']'])

/-- Texts in brackets, each on lines of its own. -/
def bracketedLines : List (List Char) → List Char
  | [] => ['[', ']']
  | texts => '[' :: '\n' :: (texts.flatMap fun text => indented text ++ [',', '\n']) ++ [']']

namespace Tree

mutual

def render : Tree → List Char
  | .undefined => undefinedName.toList
  | .active _ payload => payload.render
  | .boolean b => booleanText b
  | .number x => x.text
  | .text s => s.toList
  | .shared referent => referent.render
  | .sequence items => [','].intercalate (renderAll items)

def renderAll : List Tree → List (List Char)
  | [] => []
  | tree :: trees => tree.render :: renderAll trees

end

mutual

def debug : Tree → List Char
  | .undefined => undefinedName.toList
  | .active _ payload => payload.debug
  | .boolean b => booleanText b
  | .number x => x.text
  | .text s => quoted s.toList
  | .shared referent => '&' :: referent.debug
  | .sequence items => bracketed (debugAll items)

def debugAll : List Tree → List (List Char)
  | [] => []
  | tree :: trees => tree.debug :: debugAll trees

end

mutual

/-- The detailed text on one line. -/
def detail : Tree → List Char
  | .undefined => Tree.undefined.debug
  | .active position payload => (Tree.active position payload).debug
  | .boolean b => booleanText b
  | .number x => x.detail
  | .text s => quoted s.toList
  | .shared referent => '&' :: referent.detail
  | .sequence items => bracketed (detailAll items)

def detailAll : List Tree → List (List Char)
  | [] => []
  | tree :: trees => tree.detail :: detailAll trees

end

mutual

/-- The detailed text with each item of a sequence on lines of its own. Behind a reference it is
on one line again. -/
def detailLines : Tree → List Char
  | .undefined => Tree.undefined.debug
  | .active position payload => (Tree.active position payload).debug
  | .boolean b => booleanText b
  | .number x => x.detail
  | .text s => quoted s.toList
  | .shared referent => '&' :: referent.detail
  | .sequence items => bracketedLines (detailLinesAll items)

/-- The detailed texts of a list, each item of a sequence on lines of its own. -/
def detailLinesAll : List Tree → List (List Char)
  | [] => []
  | tree :: trees => tree.detailLines :: detailLinesAll trees

end

/-- The text of an alternative that shows its position: one step for each kind passed over. -/
def alternativeText (position : Nat) (payload : Tree) : List Char :=
  (List.replicate position "Tail(".toList).flatten ++ "Head(".toList ++ payload.detail
    ++ List.replicate (position + 1) ')'

end Tree

end LooseValue
