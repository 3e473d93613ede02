import Residual.Text.Spelling
import Residual.StateSpace.Basic

/-!
# Drawing state spaces

A state space is drawn as a graph in the dot language: one statement a line, a line for
every state and for every transition, and an arrow from a point into the initial state.
Titles, expressions and tokens may hold any characters, so every text that is not chosen
here is written between double quotes with its quotes and backslashes escaped.

What a drawing shows is a `Picture`: the labels are chosen when it is made, and how they are
written does not depend on the space any more.
-/

namespace Residual

universe u

namespace Dot

/-- What a drawing shows. -/
structure Style where
  /-- Whether a state is labelled with its expression, and not with its number. -/
  expressions : Bool := true
  /-- The text above the graph. -/
  title : Option String := none
  deriving DecidableEq, Repr

/-- A node that stands for a state. -/
structure Vertex where
  /-- A double circle accepts. -/
  accepting : Bool
  /-- A dashed outline says that the state was not followed completely. -/
  truncated : Bool
  label : List Char
  deriving DecidableEq, Repr

/-- An edge that stands for a transition between two states. -/
structure Arc where
  source : Nat
  label : List Char
  target : Nat
  deriving DecidableEq, Repr

/-- A graph as it is seen. The nodes are numbered in order. -/
structure Picture where
  title : Option String
  initial : Nat
  vertices : List Vertex
  arcs : List Arc
  deriving DecidableEq, Repr

/-! ## Texts -/

/-- Puts a text in the place of every occurrence of a character. -/
def replace (old : Char) (new text : List Char) : List Char :=
  text.flatMap fun value => if value = old then new else [value]

/-- A backslash in front of every backslash and every double quote. The quotes come last:
the backslashes in front of them are not doubled. -/
def escape (text : List Char) : List Char :=
  replace '\x22' ['\x5c', '\x22'] (replace '\x5c' ['\x5c', '\x5c'] text)

@[simp] theorem escape_nil : escape [] = [] := rfl

/-- The two replacements do not disturb each other, so a text is escaped character by
character. -/
theorem escape_cons (value : Char) (text : List Char) :
    escape (value :: text) =
      (if value = '\x5c' ∨ value = '\x22' then ['\x5c', value] else [value]) ++ escape text := by
  by_cases backslash : value = '\x5c'
  · simp [escape, replace, backslash]
  · by_cases quote : value = '\x22'
    · simp [escape, replace, quote]
    · simp [escape, replace, backslash, quote]

/-! ## Statements -/

/-- A key and its value, which stands between double quotes. -/
def assignment (key : String) (value : List Char) : List Char :=
  key.toList ++ ['=', '\x22'] ++ escape value ++ ['\x22']

/-- A key and its value in the brackets that follow a node or an edge. -/
def bracketed (key : String) (value : List Char) : List Char :=
  '[' :: (assignment key value ++ [']'])

/-- The name of the node that stands for a state. -/
def node (number : Nat) : List Char := "state_".toList ++ digits number

/-- The arrow between two nodes. -/
def arrow (source target : List Char) : List Char := source ++ " -> ".toList ++ target

/-- The statements for the title: where it stands and what it says. -/
def titleLines : Option String → List (List Char)
  | none => []
  | some title =>
      [assignment "labelloc" ['t'] ++ [';'], assignment "label" title.toList ++ [';']]

/-- The statement for a state. -/
def vertexLine (number : Nat) (vertex : Vertex) : List Char :=
  let shape := if vertex.accepting then "doublecircle" else "circle"
  let outline := if vertex.truncated then bracketed "style" "dashed".toList else []
  node number ++ ' ' :: (bracketed "shape" shape.toList ++ bracketed "label" vertex.label ++
    outline)

/-- The statement for a transition. -/
def arcLine (arc : Arc) : List Char :=
  arrow (node arc.source) (node arc.target) ++ ' ' :: bracketed "label" arc.label

/-- The lines of a drawing. -/
def Picture.lines (picture : Picture) : List (List Char) :=
  "digraph \x7b".toList :: (titleLines picture.title ++
    ("start ".toList ++ bracketed "shape" "point".toList) ::
    arrow "start".toList (node picture.initial) ::
    (picture.vertices.mapIdx vertexLine ++ picture.arcs.map arcLine ++ [['\x7d']]))

/-- The text of a drawing. -/
def Picture.text (picture : Picture) : String :=
  String.ofList (picture.lines.flatMap fun line => line ++ ['\n'])

variable {α : Type u} [Spelled α]

/-- The text inside the node of a state. -/
def caption (style : Style) (number : Nat) (state : ExploredState α) : List Char :=
  if style.expressions then spelling state.configuration else digits number

end Dot

namespace StateSpace

open Dot

variable {α : Type u} [Spelled α]

/-- What is drawn of a state space. -/
def picture (space : StateSpace α) (style : Style) : Picture where
  title := style.title
  initial := space.initial
  vertices := space.states.toList.mapIdx fun number state =>
    ⟨state.accepting, state.truncated, caption style number state⟩
  arcs := space.transitions.toList.map fun transition =>
    ⟨transition.source, spelling transition.token, transition.target⟩

/-- The text of a drawing. -/
def dot (space : StateSpace α) (style : Style) : String := (space.picture style).text

end StateSpace

end Residual
