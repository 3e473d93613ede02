import Residual.Proofs.Reading.Unclosed
import Residual.Regex.Parse

/-!
# Brackets that are still open

The reader takes a closing bracket for a group it has opened and for nothing else, so none of
the ways it goes closes more than it opened. A group that is reported as unclosed is therefore
open all the way to the place where the reader stopped. It may be closed behind that place:
the reader gives an expression up at a character that cannot continue it, and does not look
for the closing bracket that belongs to the group.
-/

namespace Residual

/-- What a character adds to the number of open brackets. -/
def bracketWeight (value : Char) : Int :=
  if value = '(' then 1 else if value = ')' then -1 else 0

/-- The number of brackets a text opens less the number it closes. -/
def depth : List Char → Int
  | [] => 0
  | value :: text => bracketWeight value + depth text

@[simp] theorem depth_append (first second : List Char) :
    depth (first ++ second) = depth first + depth second := by
  induction first with
  | nil => simp [depth]
  | cons value first ih => simp [depth, ih, Int.add_assoc]

theorem bracketWeight_nonneg {value : Char} (other : value ≠ ')') : 0 ≤ bracketWeight value := by
  rw [bracketWeight, if_neg other]
  split <;> decide

/-! ## Texts that close what they opened only -/

/-- Read from the left, the text never closes more brackets than it opened. -/
def Covered (text : List Char) : Prop := ∀ length, 0 ≤ depth (text.take length)

theorem covered_nil : Covered [] := by
  intro length
  simp [depth]

theorem covered_singleton {value : Char} (other : value ≠ ')') : Covered [value] := by
  intro length
  cases length with
  | zero => simp [depth]
  | succ length => simpa [depth] using bracketWeight_nonneg other

theorem Covered.append {first second : List Char} (before : Covered first)
    (behind : Covered second) : Covered (first ++ second) := by
  intro length
  rw [List.take_append, depth_append]
  exact Int.add_nonneg (before length) (behind (length - first.length))

/-- The bracket in front makes up for the one behind. -/
theorem Covered.enclose {text : List Char} (covered : Covered text) :
    Covered ('(' :: (text ++ [')'])) := by
  intro length
  cases length with
  | zero => simp [depth]
  | succ length =>
      have inside := covered length
      -- A prefix holds the last bracket or stops in front of it.
      have closing : -1 ≤ depth ([')'].take (length - text.length)) := by
        cases length - text.length with
        | zero => decide
        | succ => simp [depth, bracketWeight]
      rw [List.take_succ_cons, depth, List.take_append, depth_append]
      have opening : bracketWeight '(' = 1 := rfl
      omega

/-! ## Ways of the reader -/

/-- On the way no bracket is closed that was not opened on it. -/
def Cursor.Covers (start after : Cursor) : Prop :=
  ∃ taken, start.Takes taken after ∧ Covered taken

namespace Cursor

theorem covers_refl (cursor : Cursor) : cursor.Covers cursor :=
  ⟨[], cursor.takes_nil, covered_nil⟩

theorem covers_cons (offset : Nat) {value : Char} (ahead : List Char) (other : value ≠ ')') :
    Covers ⟨offset, value :: ahead⟩ ⟨offset + 1, ahead⟩ :=
  ⟨[value], takes_cons offset value ahead, covered_singleton other⟩

theorem Covers.trans {start middle after : Cursor} (before : start.Covers middle)
    (behind : middle.Covers after) : start.Covers after := by
  rcases before with ⟨first, takesFirst, coveredFirst⟩
  rcases behind with ⟨second, takesSecond, coveredSecond⟩
  exact ⟨first ++ second, takesFirst.append takesSecond, coveredFirst.append coveredSecond⟩

theorem Covers.enclose {offset closing : Nat} {ahead rest : List Char}
    (inside : Covers ⟨offset + 1, ahead⟩ ⟨closing, ')' :: rest⟩) :
    Covers ⟨offset, '(' :: ahead⟩ ⟨closing + 1, rest⟩ := by
  rcases inside with ⟨taken, takes, covered⟩
  have group := (takes_cons offset '(' ahead).append (takes.append (takes_cons closing ')' rest))
  exact ⟨_, group, covered.enclose⟩

theorem covers_skip (cursor : Cursor) {expected : Char} (other : expected ≠ ')') :
    cursor.Covers (cursor.skip expected) := by
  rcases cursor.skip_cases expected with ⟨offset, ahead, rfl, skipped⟩ | ⟨_, kept⟩
  · rw [skipped]
    exact covers_cons offset ahead other
  · rw [kept]
    exact cursor.covers_refl

end Cursor

/-- No attempt takes a closing bracket but for a group that it opened. -/
theorem Reads.covers {task : Task} {start : Cursor} {reading : Reading}
    (reads : Reads task start reading) : start.Covers reading.after := by
  induction reads with
  | compound _ _ atomIH operatorsIH => exact atomIH.trans operatorsIH
  | headless _ _ atomIH => exact atomIH
  | @leaf offset value ahead regex isLeaf =>
      apply Cursor.covers_cons
      intro closing
      subst closing
      cases isLeaf
  | @blocked start _ | @noBar start _ => exact start.covers_refl
  | group _ innerIH => exact innerIH.enclose
  | @unclosedGroup offset ahead _ _ _ _ innerIH | @brokenGroup offset _ ahead _ _ innerIH =>
      exact (Cursor.covers_cons offset ahead (by decide)).trans innerIH
  | @emptyGroup offset ahead inner _ innerIH =>
      rcases inner.skip_cases ')' with ⟨closing, rest, rfl, closed⟩ | ⟨_, kept⟩
      · rw [closed]
        exact innerIH.enclose
      · rw [kept]
        exact (Cursor.covers_cons offset ahead (by decide)).trans innerIH
  | @bar offset ahead _ _ rightIH =>
      exact (Cursor.covers_cons offset ahead (by decide)).trans rightIH
  | @concat _ _ start _ _ _ _ rightIH restIH =>
      exact ((start.covers_skip (by decide)).trans rightIH).trans restIH
  | @brokenFactor _ start _ _ _ rightIH => exact (start.covers_skip (by decide)).trans rightIH
  | @union _ _ start _ _ _ _ _ _ factorIH rightIH restIH =>
      exact (((start.covers_skip (by decide)).trans factorIH).trans rightIH).trans restIH
  | @brokenAlternative _ start _ _ _ _ _ factorIH rightIH =>
      exact ((start.covers_skip (by decide)).trans factorIH).trans rightIH
  | @star _ start _ offset ahead _ _ _ _ factorIH alternativeIH restIH =>
      have round := ((start.covers_skip (by decide)).trans factorIH).trans alternativeIH
      exact (round.trans (Cursor.covers_cons offset ahead (by decide))).trans restIH
  | @done _ start _ _ _ _ _ factorIH alternativeIH =>
      exact ((start.covers_skip (by decide)).trans factorIH).trans alternativeIH

/-! ## Groups reported as unclosed -/

/-- Counted from the bracket at `opening` on, the brackets never come out even. -/
def NeverClosed (text : List Char) (opening : Nat) : Prop :=
  ∀ length, 0 < length → depth ((text.drop opening).take length) ≠ 0

/-- A group that was left open is open in front of every character the reader took. -/
theorem Cursor.LeavesOpenGroup.depth_pos {text : List Char} {offset opening : Nat} {after : Cursor}
    (leaves : (Cursor.startingAt text offset).LeavesOpenGroup opening after) {length : Nat}
    (positive : 0 < length) (within : opening + length ≤ after.offset) :
    0 < depth ((text.drop opening).take length) := by
  cases leaves with
  | @intro before ahead inner takesBefore content _ =>
      rcases content.covers with ⟨taken, takes, covered⟩
      have group : text.drop opening = '(' :: (taken ++ after.ahead) := by
        have ahead := congrArg Cursor.ahead takesBefore.startingAt_offset
        rw [← takes.ahead]
        exact ahead
      have place : after.offset = opening + 1 + taken.length := takes.offset
      cases length with
      | zero => cases positive
      | succ length =>
          -- What was taken behind the opening bracket never closes it.
          have inside : length ≤ taken.length := by omega
          have nonneg := covered length
          rw [group, List.take_succ_cons, List.take_append_of_le_length inside, depth]
          have opened : bracketWeight '(' = 1 := rfl
          omega

/-- The brackets behind a place come on top of those that are open there. -/
theorem depth_take_add (text : List Char) (start near far : Nat) :
    depth ((text.drop start).take (near + far)) =
      depth ((text.drop start).take near) + depth ((text.drop (start + near)).take far) := by
  rw [List.take_add, depth_append, List.drop_drop]

theorem Reading.found_of_unterminatedGroup {reading : Reading} {opening : Nat}
    (failed : reading.result = .error (.unterminatedGroup opening)) :
    reading.found = .unclosed opening := by
  rcases reading with ⟨found, after⟩
  cases found with
  | expression | nothing => cases failed
  | unclosed place => cases failed; rfl

/-- A group reported as unclosed is open up to the place where the reader stopped. It is never
closed exactly if what is left unread does not close all the groups that are open there. -/
theorem reported_group_open_up_to_stop {text : String} {opening : Nat}
    (failed : (Regex.parse text).value = .error (.unterminatedGroup opening)) :
    let stop := (readExpression (.ofString text)).after.offset
    let depthAtStop := depth ((text.toList.drop opening).take (stop - opening))
    (∀ length, 0 < length → opening + length ≤ stop →
      0 < depth ((text.toList.drop opening).take length)) ∧
      (NeverClosed text.toList opening ↔
        ∀ length, depthAtStop + depth ((text.toList.drop stop).take length) ≠ 0) := by
  intro stop depthAtStop
  rw [Regex.value_parse] at failed
  have reads : Reads .expression (.startingAt text.toList 0) (readExpression (.ofString text)) :=
    reads_read .expression (.ofString text)
  have leaves := reads.leavesOpenGroup (Reading.found_of_unterminatedGroup failed)
  have before : opening < stop := leaves.openGroup.2.1.before
  have reached : opening + (stop - opening) = stop := Nat.add_sub_cancel' (Nat.le_of_lt before)
  have total : ∀ length, depth ((text.toList.drop opening).take (stop - opening + length)) =
      depthAtStop + depth ((text.toList.drop stop).take length) := by
    intro length
    rw [depth_take_add, reached]
  refine ⟨fun length positive within => leaves.depth_pos positive within, ?_⟩
  constructor
  · intro never length
    rw [← total]
    exact never (stop - opening + length) (by omega)
  · intro unread length positive
    by_cases within : opening + length ≤ stop
    · exact (Int.ne_of_lt (leaves.depth_pos positive within)).symm
    -- A length that goes behind the stop is the one up to there and some unread text.
    · have behind := unread (length - (stop - opening))
      rw [← total, Nat.add_sub_cancel' (by omega)] at behind
      exact behind

/-- In a text that ends where the reader stops, nothing is left to close the group. -/
theorem reported_group_open_at_end :
    (Regex.parse "x((b|c)").value = .error (.unterminatedGroup 1) ∧
      NeverClosed "x((b|c)".toList 1 := by
  have read : readExpression (.ofString "x((b|c)") = ⟨.unclosed 1, ⟨7, []⟩⟩ := by decide +kernel
  have failed : (Regex.parse "x((b|c)").value = .error (.unterminatedGroup 1) := by
    rw [Regex.value_parse, read]
    rfl
  refine ⟨failed, (reported_group_open_up_to_stop failed).2.mpr ?_⟩
  rw [read]
  intro length
  have nothingLeft : "x((b|c)".toList.drop 7 = [] := by decide
  rw [nothingLeft, List.take_nil]
  decide

/-- The group opened behind the first bracket is closed at the end of the text. The reader gives
its expression up between the bars, where an operand is missing, and reports that group, not
the first one, as never closed. -/
theorem closed_group_is_reported :
    (Regex.parse "((a||b)").value = .error (.unterminatedGroup 1) ∧
      ¬ NeverClosed "((a||b)".toList 1 := by
  constructor
  · have read : readExpression (.ofString "((a||b)") = ⟨.unclosed 1, ⟨4, "|b)".toList⟩⟩ := by
      decide +kernel
    rw [Regex.value_parse, read]
    rfl
  · intro never
    exact never 6 (by decide) (by decide)

end Residual
