import Residual.Proofs.Sharing.Depiction
import Residual.Proofs.Text.Digits
import Residual.Proofs.Text.Lines

/-!
# Reading a listed graph

The text of a graph has a line for each vertex and for each edge, in order, and says in
between which vertex is the root. It can be read back line by line. A line of a vertex
starts with a digit and the line between vertices and edges does not; inside a line every
number ends before a blank or the end of the line. A token may hold any character, even
one that ends a line, since its spelling says which bracket closes it.
-/

namespace Residual

universe u

variable {α : Type u}

/-- The only character of the glyph of a constructor. -/
def Label.glyph : Label α → Char
  | .empty => '∅'
  | .epsilon => 'ε'
  | .token _ => 'τ'
  | .union => '|'
  | .concat => '∘'
  | .star => '*'

theorem Label.toList_symbol (label : Label α) : label.symbol.toList = [label.glyph] := by
  cases label with
  | empty => exact (rfl : "∅".toList = ['∅'])
  | epsilon => exact (rfl : "ε".toList = ['ε'])
  | token => exact (rfl : "τ".toList = ['τ'])
  | union => exact (rfl : "|".toList = ['|'])
  | concat => exact (rfl : "∘".toList = ['∘'])
  | star => exact (rfl : "*".toList = ['*'])

/-- The glyph tells everything about a label but the token of a leaf. -/
theorem Label.eq_or_token_of_glyph_eq {first second : Label α}
    (same : first.glyph = second.glyph) :
    first = second ∨ ∃ value other, first = .token value ∧ second = .token other := by
  cases first <;> cases second <;> simp [glyph] at same ⊢

/-- What the line of a vertex shows behind the glyph: the token of a leaf, in brackets. -/
def Label.argument [Spelled α] : Label α → List Char
  | .token value => '(' :: (spelling value ++ [')'])
  | _ => []

namespace Graph

variable [Spelled α]

/-! ## The lines of a text -/

/-- The lines show the graph. Behind a header stand the vertices, each with its number, its
glyph and its token. A separating line and the root follow, and then the edges, each with its
source, its target and the position of the operand. -/
structure Lists (graph : Graph α) (lines : List (List Char)) : Prop where
  length : lines.length = graph.labels.size + graph.edges.size + 3
  header : lines[0]? = some ['0', ' ', '0']
  vertex : ∀ number label, graph.labels[number]? = some label →
    lines[number + 1]? = some (digits number ++ ' ' :: label.glyph :: label.argument)
  separator : lines[graph.labels.size + 1]? = some ['#']
  root : lines[graph.labels.size + 2]? = some ('0' :: ' ' :: digits graph.root)
  edge : ∀ number edge, graph.edges[number]? = some edge →
    lines[graph.labels.size + 3 + number]? =
      some (digits edge.source ++ ' ' :: (digits edge.target ++ ' ' :: digits edge.position))

theorem vertexLine_eq (number : Nat) (label : Label α) :
    vertexLine number label = digits number ++ ' ' :: label.glyph :: label.argument := by
  cases label <;> simp [vertexLine, Label.toList_symbol, Label.argument]

/-- What stands behind the header and the vertices. -/
theorem getElem?_lines_behind (graph : Graph α) (further : Nat) :
    graph.lines[graph.labels.size + 1 + further]? =
      (['#'] :: ('0' :: ' ' :: digits graph.root) :: graph.edges.toList.map edgeLine)[further]? := by
  have vertices : (graph.labels.toList.mapIdx vertexLine).length = graph.labels.size := by simp
  rw [lines, Nat.add_right_comm, List.getElem?_cons_succ, List.getElem?_append_right (by omega),
    vertices, Nat.add_sub_cancel_left]

theorem lists_lines (graph : Graph α) : graph.Lists graph.lines where
  length := by
    simp only [lines, List.length_cons, List.length_append, List.length_mapIdx, List.length_map,
      Array.length_toList]
    omega
  header := rfl
  vertex number label found := by
    have inside : number < (graph.labels.toList.mapIdx vertexLine).length := by
      simpa using (Array.getElem?_eq_some_iff.mp found).1
    rw [lines, List.getElem?_cons_succ, List.getElem?_append_left inside, List.getElem?_mapIdx,
      Array.getElem?_toList, found, Option.map_some, vertexLine_eq]
  separator := graph.getElem?_lines_behind 0
  root := graph.getElem?_lines_behind 1
  edge number edge found := by
    have place : graph.labels.size + 3 + number = graph.labels.size + 1 + (number + 2) := by omega
    rw [place, getElem?_lines_behind, List.getElem?_cons_succ, List.getElem?_cons_succ,
      List.getElem?_map, Array.getElem?_toList, found, Option.map_some, edgeLine]

/-! ## Reading the text back -/

/-- The line of a vertex tells its label and ends where it seems to. -/
theorem vertexLine_append_inj [Delimited α] {number : Nat} {first second : Label α}
    {rest following : List Char}
    (same : vertexLine number first ++ '\n' :: rest =
      vertexLine number second ++ '\n' :: following) :
    first = second ∧ rest = following := by
  simp only [vertexLine_eq, List.append_assoc, List.append_cancel_left_eq, List.cons_append,
    List.cons.injEq, true_and] at same
  obtain ⟨glyphs, same⟩ := same
  rcases Label.eq_or_token_of_glyph_eq glyphs with rfl | ⟨value, other, rfl, rfl⟩
  · exact ⟨rfl, List.tail_eq_of_cons_eq (List.append_cancel_left same)⟩
  · simp only [Label.argument, List.cons_append, List.append_assoc, List.nil_append,
      List.cons.injEq, true_and] at same
    obtain ⟨rfl, ends⟩ := Delimited.spelling_append_inj same
    exact ⟨rfl, List.tail_eq_of_cons_eq ends⟩

/-- The line of an edge tells its three numbers and ends where it seems to. -/
theorem edgeLine_append_inj {first second : Edge} {rest following : List Char}
    (same : edgeLine first ++ '\n' :: rest = edgeLine second ++ '\n' :: following) :
    first = second ∧ rest = following := by
  rcases first with ⟨source, target, position⟩
  rcases second with ⟨otherSource, otherTarget, otherPosition⟩
  simp only [edgeLine, List.append_assoc, List.cons_append] at same
  obtain ⟨rfl, targets⟩ := digits_append_inj (.cons rfl) (.cons rfl) same
  obtain ⟨rfl, positions⟩ :=
    digits_append_inj (.cons rfl) (.cons rfl) (List.tail_eq_of_cons_eq targets)
  obtain ⟨rfl, ends⟩ :=
    digits_append_inj (.cons rfl) (.cons rfl) (List.tail_eq_of_cons_eq positions)
  exact ⟨rfl, List.tail_eq_of_cons_eq ends⟩

/-- The vertices can be read up to the line behind them. -/
theorem vertexLines_append_inj [Delimited α] {first second : List (Label α)}
    {rest following : List Char}
    (same : joined (first.mapIdx vertexLine) ++ '#' :: rest =
      joined (second.mapIdx vertexLine) ++ '#' :: following) :
    first = second ∧ rest = following := by
  have stops (rest : List Char) (number : Nat) (label : Label α) (ahead : List Char) :
      vertexLine number label ++ '\n' :: ahead ≠ '#' :: rest := by
    simp only [vertexLine, List.append_assoc]
    exact digits_append_ne_cons rfl
  obtain ⟨labels, rests⟩ := joined_mapIdx_append_inj vertexLine
    (fun _ _ _ _ _ => vertexLine_append_inj) (stops rest) (stops following) same
  exact ⟨labels, List.tail_eq_of_cons_eq rests⟩

theorem edgeLines_inj {first second : List Edge}
    (same : joined (first.map edgeLine) = joined (second.map edgeLine)) : first = second := by
  have stops (edge : Edge) (ahead : List Char) : edgeLine edge ++ '\n' :: ahead ≠ [] := by simp
  have ended : joined (first.map edgeLine) ++ [] = joined (second.map edgeLine) ++ [] := by
    rw [same]
  exact (joined_map_append_inj edgeLine (fun _ _ _ _ => edgeLine_append_inj)
    stops stops ended).1

/-- Different graphs have different texts. -/
theorem text_injective [Delimited α] {first second : Graph α}
    (same : first.text = second.text) : first = second := by
  have written : joined first.lines = joined second.lines := String.ofList_injective same
  simp only [lines, joined_cons, joined_append, List.cons.injEq, true_and, List.cons_append,
    List.nil_append] at written
  obtain ⟨labels, written⟩ := vertexLines_append_inj written
  simp only [List.cons.injEq, true_and] at written
  obtain ⟨roots, written⟩ := digits_append_inj (.cons rfl) (.cons rfl) written
  have edges := edgeLines_inj (List.tail_eq_of_cons_eq written)
  rcases first with ⟨firstLabels, firstEdges, firstRoot⟩
  rcases second with ⟨secondLabels, secondEdges, secondRoot⟩
  rw [Graph.mk.injEq]
  exact ⟨Array.toList_inj.mp labels, Array.toList_inj.mp edges, roots⟩

end Graph

/-- The graph of every expression that steps build, whatever they share, shows its
instances and the steps between them. Its text lists the vertices and the edges in order,
and the graph unfolds into the expression from the first vertex. Expressions whose graphs
have one text are equal and share alike. -/
theorem Workspace.graph_exact_and_text_lossless [DecidableEq α] [Spelled α] [Delimited α]
    {reader reader' : TextReader α} {steps steps' : List (Construction α)}
    {register register' : Nat} {shared shared' : Shared α}
    (built : (after reader steps).find register = .ok shared)
    (built' : (after reader' steps').find register' = .ok shared') :
    shared.node.graph.Depicts shared.node ∧
      (∃ lines, shared.node.graph.Lists lines ∧
        shared.node.graph.text = String.ofList (joined lines)) ∧
      (∀ regex, shared.node.graph.Unfolds 0 regex ↔ regex = shared.regex) ∧
      (shared.node.graph.text = shared'.node.graph.text →
        shared.regex = shared'.regex ∧ shared.node.SharesAlike shared'.node) := by
  obtain ⟨ledger, kept⟩ := after_keptBy reader steps
  obtain ⟨ledger', kept'⟩ := after_keptBy reader' steps'
  have recorded := kept.recorded built
  have recorded' := kept'.recorded built'
  have depicts := recorded.graph_depicts
  refine ⟨depicts, ⟨_, shared.node.graph.lists_lines, rfl⟩, fun regex => ?_, fun same => ?_⟩
  · rw [← shared.node.numberIn_self, ← shared.erase_node]
    exact depicts.unfolds_iff recorded shared.node.self_mem_occurrences
  · have depicts' := recorded'.graph_depicts
    rw [← Graph.text_injective same] at depicts'
    have unique := depicts.unique recorded depicts' recorded'
    rwa [shared.erase_node, shared'.erase_node] at unique

/-- A starred character and its derivative share the character, whether the derivative is
taken or put together by hand with other serial numbers; a derivative of a repeated
number shares the number, and an operand that is missing changes nothing. -/
theorem Workspace.graph_of_shared_tokens :
    (∃ derived byHand : Shared Char,
      (after Regex.parse [.token 'a', .star 0, .derive 1 'a', .concat 2 0]).find 3 = .ok derived ∧
      (after Regex.parse [.epsilon, .token 'a', .star 1, .concat 0 2, .concat 3 1]).find 4 =
        .ok byHand ∧
      derived.node.graph.text =
        "0 0\n0 ∘\n1 ∘\n2 ε\n3 *\n4 τ(a)\n#\n0 0\n1 2 0\n3 4 0\n1 3 1\n0 1 0\n0 4 1\n" ∧
      derived.node.graph.text = byHand.node.graph.text ∧
      derived.regex = byHand.regex ∧ derived.node.SharesAlike byHand.node) ∧
    ∃ repeated : Shared Int,
      (after (fun _ => .silent (.error (.noExpression 0)))
        [.token (-1), .operand 0 0, .concat 0 0, .residual 2 [-1]]).find 3 = .ok repeated ∧
      repeated.node.graph.Depicts repeated.node ∧
      (∃ lines, repeated.node.graph.Lists lines ∧ lines[4]? = some "3 τ(-1)".toList ∧
        repeated.node.graph.text = String.ofList (joined lines)) ∧
      repeated.node.graph.Unfolds 0
        (.union (.concat .epsilon (.token (-1))) (.concat .empty .epsilon)) := by
  constructor
  · let derived : Shared Char :=
      ⟨.concat (.concat .epsilon (.star (.token 'a'))) (.token 'a'),
        .concat 5 (.concat 2 (.epsilon 4) (.star 3 (.token 0 'a'))) (.token 0 'a'), rfl⟩
    let byHand : Shared Char :=
      ⟨.concat (.concat .epsilon (.star (.token 'a'))) (.token 'a'),
        .concat 4 (.concat 3 (.epsilon 0) (.star 2 (.token 1 'a'))) (.token 1 'a'), rfl⟩
    let drawn : Graph Char :=
      ⟨#[.concat, .concat, .epsilon, .star, .token 'a'],
        #[⟨1, 2, 0⟩, ⟨3, 4, 0⟩, ⟨1, 3, 1⟩, ⟨0, 1, 0⟩, ⟨0, 4, 1⟩], 0⟩
    have derivedGraph : derived.node.graph = drawn := by
      simp [derived, drawn, Node.graph, Node.visit, Node.Walk.meet, Node.Walk.connect,
        Node.Walk.start, Node.serial, Node.label]
    have byHandGraph : byHand.node.graph = drawn := by
      simp [byHand, drawn, Node.graph, Node.visit, Node.Walk.meet, Node.Walk.connect,
        Node.Walk.start, Node.serial, Node.label]
    have same : derived.node.graph.text = byHand.node.graph.text := by
      rw [derivedGraph, byHandGraph]
    have built : (after Regex.parse
        [.token 'a', .star 0, .derive 1 'a', .concat 2 0]).find 3 = .ok derived := rfl
    have put : (after Regex.parse
        [.epsilon, .token 'a', .star 1, .concat 0 2, .concat 3 1]).find 4 = .ok byHand := rfl
    refine ⟨derived, byHand, built, put, ?_, same,
      (graph_exact_and_text_lossless built put).2.2.2 same⟩
    rw [derivedGraph]
    decide +kernel
  · let repeated : Shared Int :=
      ⟨.union (.concat .epsilon (.token (-1))) (.concat .empty .epsilon),
        .union 2 (.concat 3 (.epsilon 5) (.token 0 (-1))) (.concat 4 (.empty 6) (.epsilon 7)),
        rfl⟩
    have built : (after (fun _ => .silent (.error (.noExpression 0)))
        [.token (-1), .operand 0 0, .concat 0 0, .residual 2 [-1]]).find 3 = .ok repeated := rfl
    have token : repeated.node.graph.labels[3]? = some (.token (-1)) := by
      simp [repeated, Node.graph, Node.visit, Node.Walk.meet, Node.Walk.connect,
        Node.Walk.start, Node.serial, Node.label]
    obtain ⟨depicts, ⟨lines, lists, written⟩, unfolds, -⟩ :=
      graph_exact_and_text_lossless built built
    refine ⟨repeated, built, depicts, ⟨lines, lists, ?_, written⟩, (unfolds _).mpr rfl⟩
    rw [lists.vertex 3 _ token]
    decide +kernel

end Residual
