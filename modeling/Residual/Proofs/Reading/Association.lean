import Mathlib.Data.List.Chain
import Residual.Proofs.Reading.Grammar
import Residual.Proofs.Reading.Stops

/-!
# Association of operators

The right operand of a binary operator goes as far as it can, so without brackets an operator
should never find a finished operand on its left. That holds in a text in which no operator is
stray, that is, in which no operator takes the place of an operand: a right operand then ends
with the text, and nothing is left for the operator in front of it. Where a right operand is given
up at a stray operator, however, the attempts go on further out, and there the finished
expression becomes the left operand.
-/

namespace Residual

namespace Regex

universe u

variable {α : Type u}

/-- A single leaf under any number of stars. -/
def StarredLeaf : Regex α → Prop
  | .empty | .epsilon | .token _ => True
  | .union _ _ | .concat _ _ => False
  | .star inner => inner.StarredLeaf

/-- The left operand of every union and concatenation and the operand of every star is a starred
leaf. -/
def RightGrouped : Regex α → Prop
  | .empty | .epsilon | .token _ => True
  | .union left right | .concat left right =>
      left.StarredLeaf ∧ left.RightGrouped ∧ right.RightGrouped
  | .star inner => inner.StarredLeaf ∧ inner.RightGrouped

theorem StarredLeaf.rightGrouped {regex : Regex α} (starred : regex.StarredLeaf) :
    regex.RightGrouped := by
  induction regex with
  | empty | epsilon | token => trivial
  | union | concat => cases starred
  | star inner ih => exact ⟨starred, ih starred⟩

theorem starredLeaf_of_leaf? {value : Char} {regex : Regex Char}
    (leaf : leaf? value = some regex) : regex.StarredLeaf := by
  rcases leaf?_cases leaf with rfl | rfl | rfl
  · trivial
  · trivial
  · trivial

end Regex

/-! ## Orderly texts -/

/-- The second character is an operator where the first one needs an operand. A bar behind a dot is
not stray, because the dot has come to nothing then and the bar is attempted next. -/
def Stray (first second : Char) : Prop :=
  (first, second) ∈ [('.', '.'), ('|', '.'), ('|', '|')]

instance (first second : Char) : Decidable (Stray first second) :=
  inferInstanceAs (Decidable (_ ∈ _))

/-- There are no brackets, and no operator is stray. -/
structure Orderly (text : List Char) : Prop where
  plain : ∀ value ∈ text, value ≠ '(' ∧ value ≠ ')'
  noStray : text.IsChain fun first second => ¬ Stray first second

theorem Orderly.of_takes {start after : Cursor} {taken : List Char}
    (takes : start.Takes taken after) (orderly : Orderly start.ahead) : Orderly after.ahead := by
  rw [takes.ahead] at orderly
  constructor
  · intro value member
    exact orderly.plain value (List.mem_append_right taken member)
  · exact orderly.noStray.right_of_append

theorem Orderly.skip {start : Cursor} (orderly : Orderly start.ahead) (expected : Char) :
    Orderly (start.skip expected).ahead := by
  rcases start.exists_takes_skip expected with ⟨_, takes, _⟩
  exact orderly.of_takes takes

theorem Orderly.not_stray {value next : Char} {ahead : List Char}
    (orderly : Orderly (value :: ahead)) (found : ahead.head? = some next) : ¬ Stray value next := by
  cases ahead with
  | nil => cases found
  | cons other ahead =>
      cases found
      exact (List.isChain_cons_cons.mp orderly.noStray).1

/-- Without brackets an attempt that comes to nothing takes nothing. -/
theorem Orderly.blocked_of_nothing {start after : Cursor} (orderly : Orderly start.ahead)
    (reads : Reads .expression start ⟨.nothing, after⟩) : start.Blocked ∧ after = start := by
  rcases reads.nothing_cases with blocked | ⟨offset, ahead, _, opened, _⟩
  · exact blocked
  · subst opened
    exact absurd rfl (orderly.plain '(' List.mem_cons_self).1

/-- What blocks an atom in an orderly text and is no star is a binary operator. -/
theorem Orderly.operator_of_blocked {cursor : Cursor} (orderly : Orderly cursor.ahead)
    (blocked : cursor.Blocked) (unstarred : cursor.peek ≠ some '*') {value : Char}
    (next : cursor.peek = some value) : value = '|' ∨ value = '.' := by
  have member := blocked value next
  have plain := orderly.plain value (List.mem_of_mem_head? next)
  simp only [List.mem_cons, List.not_mem_nil, or_false] at member
  rcases member with rfl | rfl | rfl | rfl
  · exact .inl rfl
  · exact absurd next unstarred
  · exact .inr rfl
  · exact absurd rfl plain.2

/-- A round of attempts comes to nothing at the end of the text only. -/
theorem Orderly.ahead_eq_nil {start middle last : Cursor} (orderly : Orderly start.ahead)
    (factor : Reads .expression (start.skip '.') ⟨.nothing, middle⟩)
    (alternative : Reads .alternative middle ⟨.nothing, last⟩) (unstarred : last.peek ≠ some '*') :
    last.ahead = [] := by
  have behindDot := orderly.skip '.'
  rcases behindDot.blocked_of_nothing factor with ⟨blocked, same⟩
  rw [← same] at blocked behindDot
  apply Cursor.peek_eq_none
  apply Option.eq_none_iff_forall_ne_some.mpr
  -- A character behind the round would be an operator, and a stray one.
  intro value next
  cases alternative with
  | noBar noBar =>
      rcases behindDot.operator_of_blocked blocked unstarred next with rfl | rfl
      · exact noBar next
      · rcases start.skip_cases '.' with ⟨offset, ahead, rfl, skipped⟩ | ⟨noDot, kept⟩
        · rw [same, skipped] at next
          exact orderly.not_stray next (by decide)
        · rw [same, kept] at next
          exact noDot next
  | @bar offset ahead _ right =>
      have behindBar := behindDot.of_takes (Cursor.takes_cons offset '|' ahead)
      rcases behindBar.blocked_of_nothing right with ⟨blockedBehind, rfl⟩
      have stray : Stray '|' value := by
        rcases behindBar.operator_of_blocked blockedBehind unstarred next with rfl | rfl
        · decide
        · decide
      exact behindDot.not_stray next stray

/-! ## What is read in orderly texts -/

/-- What an attempt in an orderly text comes to when it finds an expression. With its operators
an expression goes to the end of the text, provided that the operators find a starred leaf in
hand. -/
def Task.Groups : Task → Regex Char → Cursor → Prop
  | .atom, regex, _ => regex.StarredLeaf
  | .expression, regex, after | .alternative, regex, after => regex.RightGrouped ∧ after.ahead = []
  | .operators left, regex, after =>
      left.StarredLeaf → regex.RightGrouped ∧ after.ahead = []

/-- At the end of the text the expression in hand is kept. -/
theorem Reads.eq_of_ahead_eq_nil {left : Regex Char} {start : Cursor} {reading : Reading}
    (reads : Reads (.operators left) start reading) (ended : start.ahead = []) :
    reading = ⟨.expression left, start⟩ := by
  rcases start with ⟨offset, ahead⟩
  subst ended
  have kept : Reads (.operators left) ⟨offset, []⟩ ⟨.expression left, ⟨offset, []⟩⟩ :=
    EndsSentence.reads (.inl rfl) left offset
  rw [← reads.read_eq, kept.read_eq]

theorem Reads.groups {task : Task} {start : Cursor} {reading : Reading}
    (reads : Reads task start reading) (orderly : Orderly start.ahead) {regex : Regex Char}
    (found : reading.found = .expression regex) : task.Groups regex reading.after := by
  induction reads generalizing regex with
  | compound atom _ atomIH operatorsIH =>
      rcases atom.exists_takes with ⟨_, takes⟩
      exact operatorsIH (orderly.of_takes takes) found (atomIH orderly rfl)
  | headless _ none _ => exact absurd found (none regex)
  | leaf isLeaf =>
      cases found
      exact Regex.starredLeaf_of_leaf? isLeaf
  | blocked | unclosedGroup | emptyGroup | brokenGroup | noBar => cases found
  | brokenFactor | brokenAlternative => cases found
  | group => exact absurd rfl (orderly.plain '(' List.mem_cons_self).1
  | @bar offset ahead _ _ rightIH =>
      exact rightIH (orderly.of_takes (Cursor.takes_cons offset '|' ahead)) found
  | concat _ rest rightIH _ =>
      rcases rightIH (orderly.skip '.') rfl with ⟨grouped, ended⟩
      cases rest.eq_of_ahead_eq_nil ended
      cases found
      exact fun starred => ⟨⟨starred, starred.rightGrouped, grouped⟩, ended⟩
  | union factor _ rest _ rightIH _ =>
      rcases factor.exists_takes with ⟨_, takes⟩
      rcases rightIH ((orderly.skip '.').of_takes takes) rfl with ⟨grouped, ended⟩
      cases rest.eq_of_ahead_eq_nil ended
      cases found
      exact fun starred => ⟨⟨starred, starred.rightGrouped, grouped⟩, ended⟩
  | @star _ _ _ offset ahead _ factor alternative _ _ _ restIH =>
      rcases factor.exists_takes_round alternative with ⟨_, takes⟩
      have takesStar := takes.append (Cursor.takes_cons offset '*' ahead)
      exact restIH (orderly.of_takes takesStar) found
  | done factor alternative unstarred _ _ =>
      cases found
      exact fun starred =>
        ⟨starred.rightGrouped, orderly.ahead_eq_nil factor alternative unstarred⟩

/-- In a text without brackets and without stray operators, binary operators associate to the
right and a star belongs to a leaf. The text is read to its end then. -/
theorem right_grouped_without_stray_operators {text : String} {regex : Regex Char}
    (orderly : Orderly text.toList) (parsed : (Regex.parse text).value = .ok regex) :
    regex.RightGrouped ∧ (readExpression (.ofString text)).after.ahead = [] := by
  rw [Regex.value_parse, Reading.result_eq_ok] at parsed
  exact (reads_read .expression (.ofString text)).groups orderly parsed

/-- Operators without operands that are not stray: a dot in front of a bar, a bar in front of a
star, and a dot at the end. -/
theorem right_grouped_of_idle_operators :
    let regex : Regex Char :=
      .concat (.star (.token 'a')) (.union (.star (.star (.token 'b'))) (.token 'c'))
    Orderly "a.|*b**|c.".toList ∧ (Regex.parse "a.|*b**|c.").value = .ok regex ∧
      regex.RightGrouped ∧ (readExpression (.ofString "a.|*b**|c.")).after.ahead = [] := by
  intro regex
  have orderly : Orderly "a.|*b**|c.".toList := ⟨by simp, by decide⟩
  have read : readExpression (.ofString "a.|*b**|c.") = ⟨.expression regex, ⟨10, []⟩⟩ := by
    decide +kernel
  have parsed : (Regex.parse "a.|*b**|c.").value = .ok regex := by
    rw [Regex.value_parse, read]
    rfl
  exact ⟨orderly, parsed, right_grouped_without_stray_operators orderly parsed⟩

/-- The `b` has no operand for the first bar and leaves the second one to the concatenation, which
takes it with itself as the left operand, or takes the star behind it. -/
theorem not_right_grouped_of_stray_bar :
    let a : Regex Char := .token 'a'
    let b : Regex Char := .token 'b'
    ((Regex.parse "ab||c").value = .ok (.union (.concat a b) (.token 'c')) ∧
        ¬ (Regex.union (.concat a b) (.token 'c')).RightGrouped) ∧
      (Regex.parse "ab||*").value = .ok (.star (.concat a b)) ∧
        ¬ (Regex.star (.concat a b)).RightGrouped := by
  intro a b
  have readUnion : readExpression (.ofString "ab||c") =
      ⟨.expression (.union (.concat a b) (.token 'c')), ⟨5, []⟩⟩ := by
    decide +kernel
  have readStar : readExpression (.ofString "ab||*") =
      ⟨.expression (.star (.concat a b)), ⟨5, []⟩⟩ := by
    decide +kernel
  refine ⟨⟨?_, fun grouped => grouped.1⟩, ?_, fun grouped => grouped.1⟩
  · rw [Regex.value_parse, readUnion]
    rfl
  · rw [Regex.value_parse, readStar]
    rfl

end Residual
