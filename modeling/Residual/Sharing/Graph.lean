import Std.Data.HashMap
import Residual.Text.Spelling
import Residual.Sharing.Node

/-!
# Drawing the sharing of an expression

The graph of an expression has one vertex for each node, however often that node occurs.
Vertices are numbered as a walk first meets them, every node before its operands and
these from left to right. An edge leads from a node to each of its operands and carries
the position of the operand; it is listed when the walk has returned from there, since
only then is the number of the operand known.
-/

namespace Residual

open Std

universe u

/-- A step from a node to one of its operands. -/
structure Edge where
  source : Nat
  target : Nat
  position : Nat
  deriving DecidableEq, Repr

/-- Vertices by number and edges, both in the order in which they were listed. -/
structure Graph (α : Type u) where
  labels : Array (Label α)
  edges : Array Edge
  /-- The vertex of the node that was drawn. -/
  root : Nat
  deriving DecidableEq, Repr

namespace Node

variable {α : Type u}

/-- The outermost constructor. -/
def label : Node α → Label α
  | .empty _ => .empty
  | .epsilon _ => .epsilon
  | .token _ value => .token value
  | .union _ _ _ => .union
  | .concat _ _ _ => .concat
  | .star _ _ => .star

/-- A walk in progress: the labels and edges listed so far, and the vertex of each serial
number met. -/
structure Walk (α : Type u) where
  labels : Array (Label α)
  edges : Array Edge
  vertices : HashMap Nat Nat

namespace Walk

/-- A walk that has met no node. -/
def start : Walk α := ⟨#[], #[], ∅⟩

/-- Lists a new vertex; its number is the number of vertices before it. -/
def meet : Walk α → Node α → Walk α
  | ⟨labels, edges, vertices⟩, node =>
      let vertex := labels.size
      ⟨labels.push node.label, edges, vertices.insert node.serial vertex⟩

/-- Lists an edge. -/
def connect : Walk α → Nat → Nat → Nat → Walk α
  | ⟨labels, edges, vertices⟩, source, target, position =>
      ⟨labels, edges.push ⟨source, target, position⟩, vertices⟩

end Walk

/-- Visits a node: the number of its vertex, and the walk after everything below it has
been visited too. A node met before is not entered again. -/
def visit (node : Node α) (walk : Walk α) : Nat × Walk α :=
  match walk.vertices[node.serial]? with
  | some vertex => (vertex, walk)
  | none =>
      let vertex := walk.labels.size
      let entered := walk.meet node
      match node with
      | .empty _ | .epsilon _ | .token _ _ => (vertex, entered)
      | .union _ left right | .concat _ left right =>
          let (first, walk) := left.visit entered
          let (second, walk) := right.visit (walk.connect vertex first 0)
          (vertex, walk.connect vertex second 1)
      | .star _ inner =>
          let (only, walk) := inner.visit entered
          (vertex, walk.connect vertex only 0)

/-- The graph of a node and all below it. -/
def graph (node : Node α) : Graph α :=
  let visited := node.visit .start
  ⟨visited.2.labels, visited.2.edges, visited.1⟩

theorem graph_edges (node : Node α) : node.graph.edges = (node.visit .start).2.edges := rfl

end Node

namespace Graph

variable {α : Type u} [Spelled α]

/-- The line of a vertex: its number and glyph, and the token of a leaf in brackets. -/
def vertexLine (number : Nat) (label : Label α) : List Char :=
  let token :=
    match label with
    | .token value => '(' :: (spelling value ++ [')'])
    | _ => []
  digits number ++ ' ' :: (label.symbol.toList ++ token)

/-- The line of an edge: source, target and position of the operand. -/
def edgeLine (edge : Edge) : List Char :=
  digits edge.source ++ ' ' :: (digits edge.target ++ ' ' :: digits edge.position)

/-- The lines of a graph. The vertices follow a first line without meaning; a separating
line and the number of the root stand between them and the edges. -/
def lines (graph : Graph α) : List (List Char) :=
  ['0', ' ', '0'] :: (graph.labels.toList.mapIdx vertexLine ++
    ['#'] :: ('0' :: ' ' :: digits graph.root) :: graph.edges.toList.map edgeLine)

/-- The text of a graph in trivial graph format. -/
def text (graph : Graph α) : String :=
  String.ofList (graph.lines.flatMap fun line => line ++ ['\n'])

end Graph

end Residual
