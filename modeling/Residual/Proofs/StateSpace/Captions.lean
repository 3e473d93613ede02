import Residual.StateSpace.Dot
import Residual.Proofs.StateSpace.Transitions
import Residual.Proofs.Text.Digits
import Residual.Proofs.Text.Lines
import Residual.Regex.Reader

/-!
# Spellings tell expressions apart

The spelling of an expression is fully bracketed, so it shows which expression was spelled as
soon as tokens can be told from the notation around them. Nothing else is asked of them: they may
be long, and one may begin with another, because a token ends where the next reserved character
stands. The reader is of no use here, it knows tokens of one character only.

The states of an explored space stand at different configurations, and in a drawing each of them
is labelled with the spelling of its own, so no two have the same label.
-/

namespace Residual

universe u

/-- Tokens that can be told from the notation of expressions: they are spelled differently, and
not by nothing nor with a reserved character. -/
class Legible (α : Type u) [Spelled α] : Prop where
  spelling_injective : Function.Injective (spelling : α → List Char)
  spelling_ne_nil (value : α) : spelling value ≠ []
  unreserved (value : α) : ∀ character ∈ spelling value, isReserved character = false

/-! ## Integers -/

theorem isReserved_of_isDigit {character : Char} (digit : character.isDigit = true) :
    isReserved character = false := by
  rw [isReserved, List.contains_eq_mem, decide_eq_false_iff_not]
  intro member
  have free : (reserved.all fun other => !other.isDigit) = true := by decide
  have noDigit := List.all_eq_true.mp free character member
  rw [digit] at noDigit
  exact Bool.false_ne_true noDigit

theorem isReserved_of_mem_digits {value : Nat} {character : Char}
    (member : character ∈ digits value) : isReserved character = false :=
  isReserved_of_isDigit (isDigit_of_mem_digits member)

/-- Integers are legible, although one may begin with another. -/
instance : Legible Int where
  spelling_injective left right same :=
    (Delimited.spelling_append_inj (congrArg (· ++ [')']) same)).1
  spelling_ne_nil value := by
    cases value with
    | ofNat value => exact digits_ne_nil value
    | negSucc value => exact List.cons_ne_nil '-' _
  unreserved value character member := by
    cases value with
    | ofNat value => exact isReserved_of_mem_digits member
    | negSucc value =>
        rcases List.mem_cons.mp member with sign | digit
        · subst sign
          rfl
        · exact isReserved_of_mem_digits digit

/-! ## Where a token ends -/

/-- Text that does not go on with a token: it ends, or a reserved character is next. -/
def StopsToken (rest : List Char) : Prop := ∀ next ∈ rest.head?, isReserved next = true

theorem StopsToken.nil : StopsToken [] := nofun

theorem StopsToken.cons {next : Char} {rest : List Char} (reserved : isReserved next = true) :
    StopsToken (next :: rest) := by
  intro head member
  rw [← Option.some.inj member]
  exact reserved

variable {α : Type u} [Spelled α] [Legible α]

theorem takeWhile_spelling_append (value : α) {rest : List Char} (stops : StopsToken rest) :
    (spelling value ++ rest).takeWhile (fun character => !isReserved character) =
      spelling value := by
  apply takeWhile_append_of_stops
  · intro character member
    rw [Legible.unreserved value character member, Bool.not_false]
  · intro next member
    rw [stops next member, Bool.not_true]

/-- A token and the text behind it are both determined where no token goes on. -/
theorem token_append_inj {left right : α} {rest following : List Char} (stops : StopsToken rest)
    (stopsToo : StopsToken following)
    (same : spelling left ++ rest = spelling right ++ following) :
    left = right ∧ rest = following := by
  have spelled : spelling left = spelling right := by
    rw [← takeWhile_spelling_append left stops, same, takeWhile_spelling_append right stopsToo]
  rw [spelled] at same
  exact ⟨Legible.spelling_injective spelled, List.append_cancel_left same⟩

/-- A token does not begin with a reserved character. -/
theorem token_append_ne_cons {value : α} {rest following : List Char} {next : Char}
    (reserved : isReserved next = true) : spelling value ++ rest ≠ next :: following := by
  cases spelled : spelling value with
  | nil => exact absurd spelled (Legible.spelling_ne_nil value)
  | cons first more =>
      intro same
      have free := Legible.unreserved value first (spelled ▸ List.mem_cons_self)
      rw [List.head_eq_of_cons_eq same, reserved] at free
      exact Bool.false_ne_true free.symm

namespace Regex

/-- What is spelled with an opening bracket at its beginning is a union, a concatenation or a
star, which the mark behind the first operand tells apart. -/
theorem opening_cases {right : Regex α} {text following : List Char}
    (same : '(' :: text = spelling right ++ following) :
    (∃ first second, right = .union first second ∧
        text = spelling first ++ '|' :: (spelling second ++ ')' :: following)) ∨
      (∃ first second, right = .concat first second ∧
        text = spelling first ++ '.' :: (spelling second ++ ')' :: following)) ∨
      ∃ inner, right = .star inner ∧ text = spelling inner ++ ')' :: '*' :: following := by
  cases right with
  | empty | epsilon => simp at same
  | token value =>
      rw [spelling_token] at same
      exact absurd same.symm (token_append_ne_cons rfl)
  | union first second =>
      refine .inl ⟨first, second, rfl, ?_⟩
      simpa using same
  | concat first second =>
      refine .inr (.inl ⟨first, second, rfl, ?_⟩)
      simpa using same
  | star inner =>
      refine .inr (.inr ⟨inner, rfl, ?_⟩)
      simpa using same

/-- An expression and the text behind it are both determined where no token goes on. -/
theorem spelling_append_inj {left right : Regex α} {rest following : List Char}
    (stops : StopsToken rest) (stopsToo : StopsToken following)
    (same : spelling left ++ rest = spelling right ++ following) :
    left = right ∧ rest = following := by
  -- By induction on the left expression. Behind an operand stands an operator or a bracket, so
  -- each operand is determined together with the mark that follows it.
  induction left generalizing right rest following with
  | empty =>
      cases right with
      | empty => exact ⟨rfl, List.tail_eq_of_cons_eq same⟩
      | token value =>
          rw [spelling_token] at same
          exact absurd same.symm (token_append_ne_cons rfl)
      | epsilon | union | concat | star => simp at same
  | epsilon =>
      cases right with
      | epsilon => exact ⟨rfl, List.tail_eq_of_cons_eq same⟩
      | token value =>
          rw [spelling_token] at same
          exact absurd same.symm (token_append_ne_cons rfl)
      | empty | union | concat | star => simp at same
  | token value =>
      rw [spelling_token] at same
      cases right with
      | token other =>
          rw [spelling_token] at same
          exact (token_append_inj stops stopsToo same).imp_left (congrArg token)
      | empty | epsilon => exact absurd same (token_append_ne_cons rfl)
      | union | concat | star =>
          simp only [spelling_union, spelling_concat, spelling_star, List.cons_append] at same
          exact absurd same (token_append_ne_cons rfl)
  | union first second readFirst readSecond =>
      simp only [spelling_union, List.cons_append, List.append_assoc] at same
      rcases opening_cases same with
        ⟨third, fourth, rfl, text⟩ | ⟨third, fourth, rfl, text⟩ | ⟨inner, rfl, text⟩
      · obtain ⟨rfl, seconds⟩ := readFirst (.cons rfl) (.cons rfl) text
        obtain ⟨rfl, rests⟩ :=
          readSecond (.cons rfl) (.cons rfl) (List.tail_eq_of_cons_eq seconds)
        exact ⟨rfl, List.tail_eq_of_cons_eq rests⟩
      · exact absurd (readFirst (.cons rfl) (.cons rfl) text).2 (by simp)
      · exact absurd (readFirst (.cons rfl) (.cons rfl) text).2 (by simp)
  | concat first second readFirst readSecond =>
      simp only [spelling_concat, List.cons_append, List.append_assoc] at same
      rcases opening_cases same with
        ⟨third, fourth, rfl, text⟩ | ⟨third, fourth, rfl, text⟩ | ⟨inner, rfl, text⟩
      · exact absurd (readFirst (.cons rfl) (.cons rfl) text).2 (by simp)
      · obtain ⟨rfl, seconds⟩ := readFirst (.cons rfl) (.cons rfl) text
        obtain ⟨rfl, rests⟩ :=
          readSecond (.cons rfl) (.cons rfl) (List.tail_eq_of_cons_eq seconds)
        exact ⟨rfl, List.tail_eq_of_cons_eq rests⟩
      · exact absurd (readFirst (.cons rfl) (.cons rfl) text).2 (by simp)
  | star inner readInner =>
      simp only [spelling_star, List.cons_append, List.append_assoc] at same
      rcases opening_cases same with
        ⟨third, fourth, rfl, text⟩ | ⟨third, fourth, rfl, text⟩ | ⟨other, rfl, text⟩
      · exact absurd (readInner (.cons rfl) (.cons rfl) text).2 (by simp)
      · exact absurd (readInner (.cons rfl) (.cons rfl) text).2 (by simp)
      · obtain ⟨rfl, rests⟩ := readInner (.cons rfl) (.cons rfl) text
        exact ⟨rfl, List.tail_eq_of_cons_eq (List.tail_eq_of_cons_eq rests)⟩

/-- Different expressions are spelled differently. -/
theorem spelling_injective : Function.Injective (spelling : Regex α → List Char) := by
  intro left right same
  exact (spelling_append_inj .nil .nil (congrArg (· ++ []) same)).1

end Regex

/-! ## The labels of an explored space -/

namespace StateSpace

/-- A drawing labels the node of a state with a text: the node has the label, and behind its name
and its shape the text of the drawing gives the label too. -/
structure Labels (space : StateSpace α) (style : Dot.Style) (number : Nat) (label : List Char) :
    Prop where
  drawn : ((space.picture style).vertices.map (·.label))[number]? = some label
  written : ∃ shape : List Char,
    Dot.node number ++ ' ' :: (Dot.bracketed "shape" shape ++ Dot.bracketed "label" label) <:+:
      (space.dot style).toList

omit [Legible α] in
/-- The labels of a drawing with expressions are the spellings of the configurations. -/
theorem map_label_picture (space : StateSpace α) (title : Option String) :
    (space.picture ⟨true, title⟩).vertices.map (·.label) =
      (space.states.toList.map (·.configuration)).map spelling := by
  apply List.ext_getElem?
  intro number
  simp only [picture, Dot.caption, if_true, List.getElem?_map, List.getElem?_mapIdx,
    Option.map_map, Function.comp_def]

omit [Legible α] in
/-- What a node is labelled with stands in the text. -/
theorem labels_of_drawn {space : StateSpace α} {style : Dot.Style} {number : Nat}
    {label : List Char}
    (drawn : ((space.picture style).vertices.map (·.label))[number]? = some label) :
    space.Labels style number label := by
  refine ⟨drawn, ?_⟩
  rw [List.getElem?_map, Option.map_eq_some_iff] at drawn
  obtain ⟨vertex, found, rfl⟩ := drawn
  have line : Dot.vertexLine number vertex ∈ (space.picture style).lines := by
    have among : Dot.vertexLine number vertex ∈
        (space.picture style).vertices.mapIdx Dot.vertexLine := by
      rw [List.mem_iff_getElem?]
      exact ⟨number, by rw [List.getElem?_mapIdx, found, Option.map_some]⟩
    simp only [Dot.Picture.lines, List.mem_cons, List.mem_append, among, true_or, or_true]
  have inText : Dot.vertexLine number vertex ++ ['\n'] <:+: (space.dot style).toList := by
    rw [dot, Dot.Picture.text, String.toList_ofList]
    exact infix_joined line
  -- The shape comes in front of the label, and the outline behind it.
  let shape := if vertex.accepting then "doublecircle" else "circle"
  let outline := if vertex.truncated then Dot.bracketed "style" "dashed".toList else []
  have begins : Dot.node number ++ ' ' :: (Dot.bracketed "shape" shape.toList ++
      Dot.bracketed "label" vertex.label) <+: Dot.vertexLine number vertex ++ ['\n'] := by
    refine ⟨outline ++ ['\n'], ?_⟩
    simp only [Dot.vertexLine, List.append_assoc, List.cons_append, shape, outline]
  exact ⟨shape.toList, begins.isInfix.trans inText⟩

omit [Legible α] in
/-- A state is labelled with the spelling of its configuration. -/
theorem labels_expression {space : StateSpace α} (title : Option String) {number : Nat}
    {state : ExploredState α} (listed : space.states[number]? = some state) :
    space.Labels ⟨true, title⟩ number (spelling state.configuration.expression) := by
  apply labels_of_drawn
  rw [map_label_picture, List.getElem?_map, List.getElem?_map, Array.getElem?_toList, listed]
  rfl

end StateSpace

/-- If the tokens are legible, an expression is known by its spelling. Hence no two states of an
explored space are labelled alike: each has the spelling of its own configuration for a label, and
these differ. -/
theorem Relation.expressions_told_by_spelling :
    (∀ left right : Regex α, spelling left = spelling right ↔ left = right) ∧
    ∀ [DecidableEq α] [Hashable α] (relation : Relation α) (scope : Scope α)
      (title : Option String),
      let space := (relation.explore scope).value
      ((space.picture ⟨true, title⟩).vertices.map (·.label)).Nodup ∧
      ∀ (first second : Nat) (state other : ExploredState α),
        space.states[first]? = some state → space.states[second]? = some other →
          first ≠ second →
        space.Labels ⟨true, title⟩ first (spelling state.configuration.expression) ∧
        space.Labels ⟨true, title⟩ second (spelling other.configuration.expression) ∧
        spelling state.configuration.expression ≠ spelling other.configuration.expression := by
  constructor
  · intro left right
    exact Regex.spelling_injective.eq_iff
  · intro _ _ relation scope title space
    have legible : Function.Injective (spelling : Configuration α → List Char) := by
      intro ⟨left⟩ ⟨right⟩ same
      exact congrArg Configuration.mk (Regex.spelling_injective same)
    have distinct : ((space.picture ⟨true, title⟩).vertices.map (·.label)).Nodup := by
      rw [StateSpace.map_label_picture]
      exact (relation.nodup_explore scope).map legible
    refine ⟨distinct, ?_⟩
    intro first second state other listed listedToo apart
    have label := StateSpace.labels_expression title listed
    have labelToo := StateSpace.labels_expression title listedToo
    refine ⟨label, labelToo, ?_⟩
    intro same
    have inside := (List.getElem?_eq_some_iff.mp label.drawn).1
    rw [← same] at labelToo
    exact apart ((List.getElem?_inj inside distinct).mp (label.drawn.trans labelToo.drawn.symm))

/-- Integers that begin with others, where the dot tells where one ends, and the first two states
of an expression in the largest and the smallest integer of 64 bits, with their labels. -/
theorem Relation.expressions_of_integers_told :
    let regex (first second : Int) : Regex Int := .concat (.token first) (.token second)
    let relation : Relation Int :=
      ⟨"bounds", .star (regex 9223372036854775807 (-9223372036854775808))⟩
    let scope : Scope Int := ⟨1, 9, some [9223372036854775807, -9223372036854775808]⟩
    let space := (relation.explore scope).value
    Legible Int ∧ spelling (regex 1 12) ≠ spelling (regex 11 2) ∧
      (∃ state other, space.states[0]? = some state ∧ space.states[1]? = some other) ∧
      space.Labels ⟨true, some "bounds"⟩ 0
        "((9223372036854775807.-9223372036854775808))*".toList ∧
      space.Labels ⟨true, some "bounds"⟩ 1
        ("(((ε.-9223372036854775808)|(∅.∅)).".toList ++
          "((9223372036854775807.-9223372036854775808))*)".toList) ∧
      ((space.picture ⟨true, some "bounds"⟩).vertices.map (·.label)).Nodup := by
  intro regex relation scope space
  obtain ⟨told, labelled⟩ := expressions_told_by_spelling (α := Int)
  have apart : spelling (regex 1 12) ≠ spelling (regex 11 2) := by
    rw [Ne, told]
    decide
  have discoveries : space.discoveries = (relation.survey scope).found 3 :=
    relation.discoveries_explore scope (by decide +kernel)
  have firstFound : space.discoveries[0]? = some ⟨relation.start, 0⟩ := by
    rw [discoveries]
    decide +kernel
  have secondFound : space.discoveries[1]? =
      some ⟨⟨relation.start.expression.derive 9223372036854775807⟩, 1⟩ := by
    rw [discoveries]
    decide +kernel
  obtain ⟨state, listed, stands⟩ := StateSpace.exists_listed firstFound
  obtain ⟨other, listedToo, standsToo⟩ := StateSpace.exists_listed secondFound
  obtain ⟨distinct, labels⟩ := labelled relation scope (some "bounds")
  obtain ⟨label, labelToo, -⟩ := labels 0 1 state other listed listedToo (by decide)
  have here : state.configuration = relation.start := congrArg Discovery.configuration stands
  have there : other.configuration =
      ⟨relation.start.expression.derive 9223372036854775807⟩ :=
    congrArg Discovery.configuration standsToo
  have spelled : spelling state.configuration.expression =
      "((9223372036854775807.-9223372036854775808))*".toList := by
    rw [here]
    decide +kernel
  have spelledToo : spelling other.configuration.expression =
      "(((ε.-9223372036854775808)|(∅.∅)).".toList ++
        "((9223372036854775807.-9223372036854775808))*)".toList := by
    rw [there]
    decide +kernel
  rw [spelled] at label
  rw [spelledToo] at labelToo
  exact ⟨inferInstance, apart, ⟨state, other, listed, listedToo⟩, label, labelToo, distinct⟩

end Residual
