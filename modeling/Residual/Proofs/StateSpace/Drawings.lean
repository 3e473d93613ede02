import Residual.StateSpace.Dot
import Residual.Proofs.Text.Digits
import Residual.Proofs.Text.Lines

/-!
# Reading a drawing

The text of a drawing can be read back, whatever stands in its labels. A text between
double quotes ends at the first quote that is not escaped, so it tells what was written and
what follows. Outside of the quotes every statement is told from the others by its first
character or by what stands behind the name of its first node.
-/

namespace Residual

universe u v

namespace Dot

/-! ## Quoted texts -/

/-- Reads up to the first double quote that is not escaped and undoes the escapes. What
follows the quote is left over. -/
def readQuoted : List Char → Option (List Char × List Char)
  | [] => none
  | '\x22' :: rest => some ([], rest)
  | ['\x5c'] => none
  | '\x5c' :: value :: rest => (readQuoted rest).map (Prod.map (value :: ·) id)
  | value :: rest => (readQuoted rest).map (Prod.map (value :: ·) id)

theorem readQuoted_escape (text rest : List Char) :
    readQuoted (escape text ++ '\x22' :: rest) = some (text, rest) := by
  induction text with
  | nil => simp only [escape_nil, List.nil_append, readQuoted]
  | cons value text read =>
      rw [escape_cons]
      split
      -- An escaped character is written as two, and both are read at once.
      next =>
        simp only [List.cons_append, List.nil_append, readQuoted, read, Option.map_some,
          Prod.map_apply, id]
      next plain =>
        obtain ⟨backslash, quote⟩ := not_or.mp plain
        simp [readQuoted, backslash, read]

/-- A backslash at the end does not escape the quote behind it. -/
example : readQuoted (escape ['a', '\x5c'] ++ ['\x22', ']']) = some (['a', '\x5c'], [']']) := rfl

/-- An escaped text and what follows its quote are both determined. -/
theorem escape_append_inj {first second rest following : List Char}
    (same : escape first ++ '\x22' :: rest = escape second ++ '\x22' :: following) :
    first = second ∧ rest = following := by
  have read := congrArg readQuoted same
  simpa only [readQuoted_escape, Option.some.injEq, Prod.mk.injEq] using read

theorem assignment_append_inj {key : String} {first second rest following : List Char}
    (same : assignment key first ++ rest = assignment key second ++ following) :
    first = second ∧ rest = following := by
  simp only [assignment, List.append_assoc, List.append_cancel_left_eq, List.singleton_append]
    at same
  exact escape_append_inj same

theorem bracketed_append_inj {key : String} {first second rest following : List Char}
    (same : bracketed key first ++ rest = bracketed key second ++ following) :
    first = second ∧ rest = following := by
  simp only [bracketed, List.cons_append, List.append_assoc, List.cons.injEq, true_and] at same
  obtain ⟨values, rests⟩ := assignment_append_inj same
  exact ⟨values, List.tail_eq_of_cons_eq rests⟩

/-! ## Names of nodes -/

theorem node_eq (number : Nat) :
    node number = ['s', 't', 'a', 't', 'e', '_'] ++ digits number := rfl

/-- The name of a node tells its number where no digit follows. -/
theorem node_append_inj {first second : Nat} {rest following : List Char}
    (stops : StopsDigits rest) (stopsToo : StopsDigits following)
    (same : node first ++ rest = node second ++ following) :
    first = second ∧ rest = following := by
  simp only [node_eq, List.append_assoc, List.append_cancel_left_eq] at same
  exact digits_append_inj stops stopsToo same

theorem node_append_ne_cons {number : Nat} {rest following : List Char} {next : Char}
    (other : next ≠ 's') : node number ++ rest ≠ next :: following := by
  intro same
  simp only [node_eq, List.cons_append, List.cons.injEq] at same
  exact other same.1.symm

/-! ## Statements -/

/-- The title is read up to the statement for the arrow into the initial state. -/
theorem titleLines_append_inj {first second : Option String} {rest following : List Char}
    (same : joined (titleLines first) ++ 's' :: rest =
      joined (titleLines second) ++ 's' :: following) :
    first = second ∧ rest = following := by
  cases first with
  | none =>
      cases second with
      | none => exact ⟨rfl, List.tail_eq_of_cons_eq same⟩
      | some title => simp [titleLines, assignment] at same
  | some title =>
      cases second with
      | none => simp [titleLines, assignment] at same
      | some other =>
          simp only [titleLines, joined_cons, joined_nil, List.append_assoc,
            List.append_cancel_left_eq, List.cons_append, List.cons.injEq, true_and] at same
          obtain ⟨titles, rests⟩ := assignment_append_inj same
          simp only [List.nil_append, List.cons.injEq, true_and] at rests
          exact ⟨congrArg some (String.toList_inj.mp titles), rests⟩

/-- The line of a state tells how the state is drawn and ends where it seems to. -/
theorem vertexLine_append_inj {number : Nat} {first second : Vertex} {rest following : List Char}
    (same : vertexLine number first ++ '\n' :: rest =
      vertexLine number second ++ '\n' :: following) :
    first = second ∧ rest = following := by
  rcases first with ⟨accepting, truncated, label⟩
  rcases second with ⟨otherAccepting, otherTruncated, otherLabel⟩
  simp only [vertexLine, List.append_assoc, List.append_cancel_left_eq, List.cons_append,
    List.cons.injEq, true_and] at same
  obtain ⟨shapes, labels⟩ := bracketed_append_inj same
  obtain ⟨rfl, ends⟩ := bracketed_append_inj labels
  have accepts : accepting = otherAccepting := by
    cases accepting <;> cases otherAccepting <;> simp at shapes ⊢
  have outlines : truncated = otherTruncated ∧ rest = following := by
    cases truncated with
    | false =>
        cases otherTruncated with
        | false => exact ⟨rfl, List.tail_eq_of_cons_eq ends⟩
        | true => simp [bracketed] at ends
    | true =>
        cases otherTruncated with
        | false => simp [bracketed] at ends
        | true => exact ⟨rfl, List.tail_eq_of_cons_eq (List.append_cancel_left ends)⟩
  exact ⟨by rw [accepts, outlines.1], outlines.2⟩

/-- The line of a transition tells its ends and its token, and ends where it seems to. -/
theorem arcLine_append_inj {first second : Arc} {rest following : List Char}
    (same : arcLine first ++ '\n' :: rest = arcLine second ++ '\n' :: following) :
    first = second ∧ rest = following := by
  rcases first with ⟨source, label, target⟩
  rcases second with ⟨otherSource, otherLabel, otherTarget⟩
  simp only [arcLine, arrow, String.reduceToList, List.append_assoc, List.cons_append,
    List.nil_append] at same
  obtain ⟨rfl, arrows⟩ := node_append_inj (.cons rfl) (.cons rfl) same
  simp only [List.cons.injEq, true_and] at arrows
  obtain ⟨rfl, labels⟩ := node_append_inj (.cons rfl) (.cons rfl) arrows
  obtain ⟨rfl, ends⟩ := bracketed_append_inj (List.tail_eq_of_cons_eq labels)
  exact ⟨rfl, List.tail_eq_of_cons_eq ends⟩

/-- Behind the name of its node the line of a state goes on with a bracket, and the line of
a transition with an arrow. -/
theorem vertexLine_append_ne_arcLine {number : Nat} {vertex : Vertex} {arc : Arc}
    {rest following : List Char} :
    vertexLine number vertex ++ '\n' :: rest ≠ arcLine arc ++ '\n' :: following := by
  intro same
  simp only [vertexLine, bracketed, arcLine, arrow, String.reduceToList, List.append_assoc,
    List.cons_append, List.nil_append] at same
  obtain ⟨-, next⟩ := node_append_inj (.cons rfl) (.cons rfl) same
  simp at next

/-! ## The whole text -/

/-- The lines of the transitions are read up to the brace that closes the graph. -/
theorem arcLines_inj {first second : List Arc}
    (same : joined (first.map arcLine) ++ ['\x7d', '\n'] =
      joined (second.map arcLine) ++ ['\x7d', '\n']) : first = second := by
  have stops (arc : Arc) (ahead : List Char) :
      arcLine arc ++ '\n' :: ahead ≠ ['\x7d', '\n'] := by
    simp only [arcLine, arrow, List.append_assoc]
    exact node_append_ne_cons (by decide)
  exact (joined_map_append_inj arcLine (fun _ _ _ _ => arcLine_append_inj) stops stops same).1

/-- The lines of the states are read up to the first line of a transition or to the brace
that closes the graph. -/
theorem vertexLines_append_inj {first second : List Vertex} {arcs others : List Arc}
    (same : joined (first.mapIdx vertexLine) ++ (joined (arcs.map arcLine) ++ ['\x7d', '\n']) =
      joined (second.mapIdx vertexLine) ++ (joined (others.map arcLine) ++ ['\x7d', '\n'])) :
    first = second ∧ arcs = others := by
  -- With no transitions the closing brace follows, which begins no line of a state either.
  have stops (arcs : List Arc) (number : Nat) (vertex : Vertex) (ahead : List Char) :
      vertexLine number vertex ++ '\n' :: ahead ≠
        joined (arcs.map arcLine) ++ ['\x7d', '\n'] := by
    cases arcs with
    | nil =>
        simp only [vertexLine, List.append_assoc, List.map_nil, joined_nil, List.nil_append]
        exact node_append_ne_cons (by decide)
    | cons arc arcs =>
        simp only [List.map_cons, joined_cons, List.append_assoc, List.cons_append]
        exact vertexLine_append_ne_arcLine
  obtain ⟨vertices, rests⟩ := joined_mapIdx_append_inj vertexLine
    (fun _ _ _ _ _ => vertexLine_append_inj) (stops arcs) (stops others) same
  exact ⟨vertices, arcLines_inj rests⟩

/-- Different pictures have different texts. -/
theorem Picture.text_injective {first second : Picture}
    (same : first.text = second.text) : first = second := by
  have written : joined first.lines = joined second.lines := String.ofList_injective same
  rcases first with ⟨title, initial, vertices, arcs⟩
  rcases second with ⟨otherTitle, otherInitial, otherVertices, otherArcs⟩
  simp only [lines, joined_cons, joined_append, joined_nil, arrow, String.reduceToList,
    List.append_assoc, List.cons_append, List.nil_append, List.cons.injEq, true_and] at written
  obtain ⟨rfl, arrows⟩ := titleLines_append_inj written
  simp only [List.append_cancel_left_eq, List.cons.injEq, true_and] at arrows
  obtain ⟨rfl, drawn⟩ := node_append_inj (.cons rfl) (.cons rfl) arrows
  obtain ⟨rfl, rfl⟩ := vertexLines_append_inj (List.tail_eq_of_cons_eq drawn)
  rfl

/-! ## What is told apart -/

/-- All that is drawn of a state. -/
def Vertex.fields (vertex : Vertex) : Bool × Bool × List Char :=
  (vertex.accepting, vertex.truncated, vertex.label)

theorem Vertex.fields_injective : Function.Injective fields := by
  rintro ⟨accepting, truncated, label⟩ ⟨otherAccepting, otherTruncated, otherLabel⟩ same
  simpa [fields] using same

/-- All that is drawn of a transition. -/
def Arc.fields (arc : Arc) : Nat × List Char × Nat := (arc.source, arc.label, arc.target)

theorem Arc.fields_injective : Function.Injective fields := by
  rintro ⟨source, label, target⟩ ⟨otherSource, otherLabel, otherTarget⟩ same
  simpa [fields] using same

end Dot

namespace StateSpace

variable {α : Type u} {β : Type v} [Spelled α] [Spelled β]

/-- A state is drawn with its flags, and with its expression or its number. -/
theorem map_fields_vertices (space : StateSpace α) (style : Dot.Style) :
    (space.picture style).vertices.map Dot.Vertex.fields =
      space.states.toList.mapIdx fun number state =>
        (state.accepting, state.truncated,
          if style.expressions then spelling state.configuration.expression
          else digits number) := by
  apply List.ext_getElem?
  intro number
  simp only [picture, List.getElem?_map, List.getElem?_mapIdx, Option.map_map]
  rfl

/-- A transition is drawn with its token, from its source to its target. -/
theorem map_fields_arcs (space : StateSpace α) (style : Dot.Style) :
    (space.picture style).arcs.map Dot.Arc.fields =
      space.transitions.toList.map fun transition =>
        (transition.source, spelling transition.token, transition.target) := by
  rw [picture, List.map_map]
  rfl

/-- Two drawings are one text exactly if they have the same title, the same initial state, the
same flags and label at each state, which is the expression or the number, and the same source,
token and target at each transition, whatever characters titles, expressions and tokens are made
of. A quoted text is read back up to its quote, whatever follows. -/
theorem dot_unambiguous :
    (∀ (space : StateSpace α) (other : StateSpace β) (style style' : Dot.Style),
      space.dot style = other.dot style' ↔
        style.title = style'.title ∧ space.initial = other.initial ∧
        (space.states.toList.mapIdx fun number state =>
          (state.accepting, state.truncated,
            if style.expressions then spelling state.configuration.expression
            else digits number)) =
          (other.states.toList.mapIdx fun number state =>
            (state.accepting, state.truncated,
              if style'.expressions then spelling state.configuration.expression
              else digits number)) ∧
        (space.transitions.toList.map fun transition =>
          (transition.source, spelling transition.token, transition.target)) =
          other.transitions.toList.map fun transition =>
            (transition.source, spelling transition.token, transition.target)) ∧
    ∀ text rest, Dot.readQuoted (Dot.escape text ++ '\x22' :: rest) = some (text, rest) := by
  refine ⟨?_, Dot.readQuoted_escape⟩
  intro space other style style'
  constructor
  · intro same
    have pictures : space.picture style = other.picture style' := Dot.Picture.text_injective same
    refine ⟨congrArg Dot.Picture.title pictures, congrArg Dot.Picture.initial pictures, ?_, ?_⟩
    · rw [← map_fields_vertices, ← map_fields_vertices, pictures]
    · rw [← map_fields_arcs space style, ← map_fields_arcs other style', pictures]
  · rintro ⟨titles, initials, states, transitions⟩
    rw [← map_fields_vertices, ← map_fields_vertices] at states
    rw [← map_fields_arcs space style, ← map_fields_arcs other style'] at transitions
    have vertices := Dot.Vertex.fields_injective.list_map states
    have arcs := Dot.Arc.fields_injective.list_map transitions
    have pictures : space.picture style = other.picture style' := by
      rw [Dot.Picture.mk.injEq]
      exact ⟨titles, initials, vertices, arcs⟩
    rw [dot, dot, pictures]

end StateSpace

end Residual
