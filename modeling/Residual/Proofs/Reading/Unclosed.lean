import Residual.Proofs.Reading.Stops

/-!
# Where a group is left open

The error about a group is raised at one place, by the group itself, and handed through every
attempt around it. So the offset in the error is that of the innermost group that could not
be closed: the expression in it has been read, ends where the reader stands, and is not
followed by a closing bracket.
-/

namespace Residual

/-- A group is opened on the way, and the expression in it ends at `after`, but the group
does not. -/
inductive Cursor.LeavesOpenGroup (start : Cursor) (opening : Nat) (after : Cursor) : Prop where
  | intro {before ahead : List Char} {inner : Regex Char} :
      start.Takes before ⟨opening, '(' :: ahead⟩ →
        Reads .expression ⟨opening + 1, ahead⟩ ⟨.expression inner, after⟩ →
          after.peek ≠ some ')' → start.LeavesOpenGroup opening after

/-- An error is about a group that was opened during the attempt. -/
theorem Reads.leavesOpenGroup {task : Task} {start : Cursor} {reading : Reading} {opening : Nat}
    (reads : Reads task start reading) (failed : reading.found = .unclosed opening) :
    start.LeavesOpenGroup opening reading.after := by
  have settled : reading.found ≠ .nothing := by simp [failed]
  have noExpression : ∀ regex, reading.found ≠ .expression regex := by simp [failed]
  rcases reads.settles settled (fun _ => noExpression) with ⟨_, _, takes, step⟩
  cases step with
  | round => cases failed
  | openGroup inner unfinished =>
      cases failed
      exact .intro takes inner unfinished

/-- The place of an error in the text: a group is opened there, the expression that can be
read from behind its bracket ends where the reader stops, and what follows is neither a
closing bracket nor a star. -/
structure OpenGroup (text : List Char) (opening stop : Nat) : Prop where
  before : opening < stop
  opened : text[opening]? = some '('
  notClosed : text[stop]? ≠ some ')'
  noStar : text[stop]? ≠ some '*'
  holdsExpression : ∃ inner,
    readExpression (.startingAt text (opening + 1)) = ⟨.expression inner, .startingAt text stop⟩

theorem Cursor.LeavesOpenGroup.openGroup {text : List Char} {offset opening : Nat}
    {after : Cursor} (leaves : (Cursor.startingAt text offset).LeavesOpenGroup opening after) :
    offset ≤ opening ∧ OpenGroup text opening after.offset ∧
      after = .startingAt text after.offset := by
  cases leaves with
  | @intro before ahead inner takesBefore content unfinished =>
      have takesOpening := takesBefore.append (Cursor.takes_cons opening '(' ahead)
      rcases content.exists_takes with ⟨taken, takes⟩
      have takesAll := takesOpening.append takes
      have atOpening := takesBefore.startingAt_offset
      have atContent := takesOpening.startingAt_offset
      have atStop := takesAll.startingAt_offset
      refine ⟨takesBefore.offset_le, ⟨takes.offset_le, ?_, ?_, ?_, inner, ?_⟩, atStop.symm⟩
      · rw [← Cursor.peek_startingAt, atOpening]
        rfl
      · rw [← Cursor.peek_startingAt, atStop]
        exact unfinished
      · rw [← Cursor.peek_startingAt, atStop]
        exact (content.ends nofun rfl).noStar
      · rw [atContent, atStop]
        exact content.read_eq

/-- An error tells the place of a group that was left open, and a text without an opening
bracket gives no error. -/
theorem unclosed_group_located (text : List Char) (offset : Nat) :
    let reading := readExpression (.startingAt text offset)
    (∀ opening, reading.found = .unclosed opening →
      offset ≤ opening ∧ OpenGroup text opening reading.after.offset ∧
        reading.after = .startingAt text reading.after.offset) ∧
      ('(' ∉ text → ∀ opening, reading.found ≠ .unclosed opening) := by
  intro reading
  have reads : Reads .expression (.startingAt text offset) reading :=
    reads_read .expression (.startingAt text offset)
  constructor
  · intro opening failed
    exact (reads.leavesOpenGroup failed).openGroup
  · intro none opening failed
    have located := (reads.leavesOpenGroup failed).openGroup
    exact none (List.mem_of_getElem? located.2.1.opened)

/-- The bar in the first group and the second dot in the last one have no right operand. The
first group is closed all the same, the last one is not. -/
theorem unclosed_group_located_behind_star :
    let text := "z((a|)*b(c..d)".toList
    (readExpression (.startingAt text 1)).found = .unclosed 8 ∧ OpenGroup text 8 11 ∧
      ∀ opening, (readExpression (.startingAt "a|.)".toList 0)).found ≠ .unclosed opening := by
  intro text
  have read : readExpression (.startingAt text 1) = ⟨.unclosed 8, .startingAt text 11⟩ := by
    decide +kernel
  have failed : (readExpression (.startingAt text 1)).found = .unclosed 8 := by rw [read]
  have located := (unclosed_group_located text 1).1 8 failed
  rw [read] at located
  exact ⟨failed, located.2.1, (unclosed_group_located "a|.)".toList 0).2 (by decide)⟩

end Residual
