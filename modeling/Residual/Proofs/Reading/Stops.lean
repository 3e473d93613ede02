import Residual.Proofs.Reading.Locality

/-!
# Where an expression ends

An expression ends when a round of attempts at operators comes to nothing. Such a round may
take a dot, a bar and brackets before it is given up, but each attempt is given up for one
of two reasons: there is a character at which no atom begins, or a group was closed that
holds no expression. So an atom is left unread behind such a group only, and a star never,
because the star is what the round tries last.

The round is the last step of every attempt that finds an expression, as a group that is left
open is that of every attempt that ends in an error.
-/

namespace Residual

/-- Brackets within brackets, around nothing. -/
def nestedBrackets (depth : Nat) : List Char :=
  List.replicate depth '(' ++ List.replicate depth ')'

theorem nestedBrackets_succ (depth : Nat) :
    nestedBrackets (depth + 1) = '(' :: (nestedBrackets depth ++ [')']) := by
  rw [nestedBrackets, List.replicate_succ, List.replicate_succ', nestedBrackets]
  simp

/-! ## Attempts that come to nothing -/

theorem Reads.not_nothing {left : Regex Char} {start after : Cursor} :
    ¬ Reads (.operators left) start ⟨.nothing, after⟩ := by
  intro reads
  have continues := readOperators_continues left start
  have read : readOperators left start = ⟨.nothing, after⟩ := reads.read_eq
  rw [read] at continues
  exact continues.2 rfl

/-- There is no expression where no atom begins, and in a group that holds none. -/
theorem Reads.nothing_cases {start after : Cursor}
    (reads : Reads .expression start ⟨.nothing, after⟩) :
    (start.Blocked ∧ after = start) ∨
      ∃ offset ahead inner, start = ⟨offset, '(' :: ahead⟩ ∧
        Reads .expression ⟨offset + 1, ahead⟩ ⟨.nothing, inner⟩ ∧ after = inner.skip ')' := by
  cases reads with
  | compound _ operators => exact absurd operators Reads.not_nothing
  | headless atom _ =>
      cases atom with
      | blocked blocked => exact .inl ⟨blocked, rfl⟩
      | @emptyGroup offset ahead inner reads => exact .inr ⟨offset, ahead, inner, rfl, reads, rfl⟩

/-- The last character taken closes a group, opened on the way, that holds no expression. -/
inductive Cursor.LeavesEmptyGroup (start : Cursor) : Cursor → Prop where
  | intro {before ahead rest : List Char} {opening closing : Nat} :
      start.Takes before ⟨opening, '(' :: ahead⟩ →
        Reads .expression ⟨opening + 1, ahead⟩ ⟨.nothing, ⟨closing, ')' :: rest⟩⟩ →
          start.LeavesEmptyGroup ⟨closing + 1, rest⟩

/-- An attempt was given up: no atom begins, or a group without an expression was closed. -/
def Cursor.GivenUp (start after : Cursor) : Prop :=
  after.Blocked ∨ start.LeavesEmptyGroup after

theorem Cursor.Takes.givenUp {start middle after : Cursor} {taken : List Char}
    (takes : start.Takes taken middle) (givenUp : middle.GivenUp after) : start.GivenUp after := by
  cases givenUp with
  | inl blocked => exact .inl blocked
  | inr leaves =>
      cases leaves with
      | intro takesBefore reads => exact .inr (.intro (takes.append takesBefore) reads)

/-- An attempt at an expression that comes to nothing was given up. -/
theorem Reads.givenUp {offset : Nat} {ahead : List Char} {after : Cursor}
    (reads : Reads .expression ⟨offset, ahead⟩ ⟨.nothing, after⟩) :
    Cursor.GivenUp ⟨offset, ahead⟩ after := by
  -- By induction on the text, which is shorter inside the group that held nothing.
  induction ahead generalizing offset after with
  | nil =>
      rcases reads.nothing_cases with ⟨blocked, rfl⟩ | ⟨_, _, _, opened, _⟩
      · exact .inl blocked
      · cases opened
  | cons value ahead ih =>
      rcases reads.nothing_cases with ⟨blocked, rfl⟩ | ⟨_, _, inner, opened, content, ends⟩
      · exact .inl blocked
      · cases opened
        have takes := Cursor.takes_cons offset '(' ahead
        rcases inner.skip_cases ')' with ⟨closing, rest, rfl, closed⟩ | ⟨_, kept⟩
        · rw [ends, closed]
          exact .inr (.intro (Cursor.takes_nil _) content)
        · rw [ends, kept]
          exact takes.givenUp (ih content)

/-- What is taken in front of the closing bracket of a group without an expression. -/
theorem Reads.takes_nested {offset : Nat} {ahead : List Char} {after : Cursor}
    (reads : Reads .expression ⟨offset, ahead⟩ ⟨.nothing, after⟩) (next : after.peek = some ')') :
    ∃ depth, Cursor.Takes ⟨offset, ahead⟩ (nestedBrackets depth) after := by
  induction ahead generalizing offset after with
  | nil =>
      rcases reads.nothing_cases with ⟨_, rfl⟩ | ⟨_, _, _, opened, _⟩
      · cases next
      · cases opened
  | cons value ahead ih =>
      rcases reads.nothing_cases with ⟨_, rfl⟩ | ⟨_, _, inner, opened, content, ends⟩
      · exact ⟨0, Cursor.takes_nil _⟩
      · cases opened
        have takes := Cursor.takes_cons offset '(' ahead
        rcases inner.skip_cases ')' with ⟨closing, rest, rfl, closed⟩ | ⟨other, kept⟩
        · rcases ih content rfl with ⟨depth, inside⟩
          refine ⟨depth + 1, ?_⟩
          rw [ends, closed, nestedBrackets_succ]
          exact takes.append (inside.append (Cursor.takes_cons closing ')' rest))
        · rw [ends, kept] at next
          exact absurd next other

/-! ## The last step of an attempt -/

/-- The step that settles what an attempt finds: a round of operators that comes to nothing,
or a group that is left open. -/
inductive LastStep : Cursor → Reading → Prop where
  | round {left : Regex Char} {start middle last : Cursor} :
      Reads .expression (start.skip '.') ⟨.nothing, middle⟩ →
        Reads .alternative middle ⟨.nothing, last⟩ → last.peek ≠ some '*' →
          LastStep start ⟨.expression left, last⟩
  | openGroup {offset : Nat} {ahead : List Char} {inner : Regex Char} {after : Cursor} :
      Reads .expression ⟨offset + 1, ahead⟩ ⟨.expression inner, after⟩ →
        after.peek ≠ some ')' → LastStep ⟨offset, '(' :: ahead⟩ ⟨.unclosed offset, after⟩

/-- The attempt takes some characters and then makes its last step. -/
def Cursor.Settles (start : Cursor) (reading : Reading) : Prop :=
  ∃ taken middle, start.Takes taken middle ∧ LastStep middle reading

theorem LastStep.settles {start : Cursor} {reading : Reading} (step : LastStep start reading) :
    start.Settles reading :=
  ⟨[], start, start.takes_nil, step⟩

theorem Cursor.Takes.settles {start middle : Cursor} {taken : List Char} {reading : Reading}
    (takes : start.Takes taken middle) (settles : middle.Settles reading) :
    start.Settles reading := by
  rcases settles with ⟨behind, last, takesBehind, step⟩
  exact ⟨taken ++ behind, last, takes.append takesBehind, step⟩

/-- A right operand that is attempted begins behind what an optional dot takes. -/
theorem Reads.exists_takes_factor {start : Cursor} {reading : Reading}
    (reads : Reads .expression (start.skip '.') reading) :
    ∃ taken, start.Takes taken reading.after := by
  rcases start.exists_takes_skip '.' with ⟨dot, takesDot, _⟩
  rcases reads.exists_takes with ⟨taken, takes⟩
  exact ⟨dot ++ taken, takesDot.append takes⟩

/-- The attempt at an alternative begins where that at a factor came to nothing. -/
theorem Reads.exists_takes_round {start middle : Cursor} {reading : Reading}
    (factor : Reads .expression (start.skip '.') ⟨.nothing, middle⟩)
    (alternative : Reads .alternative middle reading) :
    ∃ taken, start.Takes taken reading.after := by
  rcases factor.exists_takes_factor with ⟨idle, takesIdle⟩
  rcases alternative.exists_takes with ⟨taken, takes⟩
  exact ⟨idle ++ taken, takesIdle.append takes⟩

/-- An attempt that comes to something is settled by its last step. Only the expression of a
leaf or of a closed group is found without a round of operators. -/
theorem Reads.settles {task : Task} {start : Cursor} {reading : Reading}
    (reads : Reads task start reading) (settled : reading.found ≠ .nothing)
    (whole : task = .atom → ∀ regex, reading.found ≠ .expression regex) :
    start.Settles reading := by
  -- The step is that of the attempt made last, and what was taken in front of it is added.
  induction reads with
  | compound atom _ _ operatorsIH =>
      rcases atom.exists_takes with ⟨taken, takes⟩
      exact takes.settles (operatorsIH settled nofun)
  | headless _ none atomIH => exact atomIH settled (fun _ => none)
  | leaf | group => exact absurd rfl (whole rfl _)
  | blocked | emptyGroup | noBar => exact absurd rfl settled
  | unclosedGroup inner unfinished _ => exact (LastStep.openGroup inner unfinished).settles
  | @brokenGroup offset _ ahead _ _ innerIH =>
      exact (Cursor.takes_cons offset '(' ahead).settles (innerIH settled nofun)
  | @bar offset ahead _ _ rightIH =>
      exact (Cursor.takes_cons offset '|' ahead).settles (rightIH settled nofun)
  | concat right _ _ restIH =>
      rcases right.exists_takes_factor with ⟨taken, takes⟩
      exact takes.settles (restIH settled nofun)
  | @brokenFactor _ start _ _ _ rightIH =>
      rcases start.exists_takes_skip '.' with ⟨dot, takesDot, _⟩
      exact takesDot.settles (rightIH settled nofun)
  | union factor right _ _ _ restIH =>
      rcases factor.exists_takes_round right with ⟨taken, takes⟩
      exact takes.settles (restIH settled nofun)
  | brokenAlternative factor _ _ rightIH =>
      rcases factor.exists_takes_factor with ⟨idle, takesIdle⟩
      exact takesIdle.settles (rightIH settled nofun)
  | @star _ _ _ offset ahead _ factor alternative _ _ _ restIH =>
      rcases factor.exists_takes_round alternative with ⟨taken, takes⟩
      have takesStar := takes.append (Cursor.takes_cons offset '*' ahead)
      exact takesStar.settles (restIH settled nofun)
  | done factor alternative unstarred _ _ =>
      exact (LastStep.round factor alternative unstarred).settles

/-! ## The last round -/

/-- What ends the last round: the factor and the alternative were given up. -/
theorem Reads.givenUp_round {start middle last : Cursor}
    (factor : Reads .expression (start.skip '.') ⟨.nothing, middle⟩)
    (alternative : Reads .alternative middle ⟨.nothing, last⟩) : start.GivenUp last := by
  rcases start.exists_takes_skip '.' with ⟨dot, takesDot, _⟩
  cases alternative with
  | noBar => exact takesDot.givenUp factor.givenUp
  | @bar offset ahead _ right =>
      rcases factor.exists_takes_factor with ⟨taken, takes⟩
      exact (takes.append (Cursor.takes_cons offset '|' ahead)).givenUp right.givenUp

/-- An expression may end at `after`. -/
structure Cursor.Ends (start after : Cursor) : Prop where
  noStar : after.peek ≠ some '*'
  givenUp : start.GivenUp after

/-- Every expression that is read with its operators ends with such a round. -/
theorem Reads.ends {task : Task} {start : Cursor} {reading : Reading} {regex : Regex Char}
    (reads : Reads task start reading) (whole : task ≠ .atom)
    (found : reading.found = .expression regex) : start.Ends reading.after := by
  have settled : reading.found ≠ .nothing := by simp [found]
  rcases reads.settles settled (fun atom => absurd atom whole) with ⟨_, _, takes, step⟩
  cases step with
  | round factor alternative unstarred =>
      exact ⟨unstarred, takes.givenUp (factor.givenUp_round alternative)⟩
  | openGroup => cases found

/-! ## The place in the text -/

/-- A group of the text that is opened and closed there and holds no expression: the reader
finds none behind its opening bracket and stops in front of its closing one. -/
structure EmptyGroup (text : List Char) (opening closing : Nat) : Prop where
  opened : text[opening]? = some '('
  holdsNothing :
    readExpression (.startingAt text (opening + 1)) = ⟨.nothing, .startingAt text closing⟩
  closed : text[closing]? = some ')'
  nested : ∃ depth, (text.drop opening).take (closing + 1 - opening) = nestedBrackets depth

/-- The last character in front of `stop` closes such a group, opened behind `offset`. -/
def BehindEmptyGroup (text : List Char) (offset stop : Nat) : Prop :=
  ∃ opening closing, offset ≤ opening ∧ closing + 1 = stop ∧ EmptyGroup text opening closing

theorem Cursor.LeavesEmptyGroup.behindEmptyGroup {text : List Char} {offset : Nat} {after : Cursor}
    (leaves : (Cursor.startingAt text offset).LeavesEmptyGroup after) :
    BehindEmptyGroup text offset after.offset := by
  cases leaves with
  | @intro before ahead rest opening closing takesBefore content =>
      have takesOpening := Cursor.takes_cons opening '(' ahead
      have atOpening := takesBefore.startingAt_offset
      have atContent := (takesBefore.append takesOpening).startingAt_offset
      rcases content.takes_nested rfl with ⟨depth, inside⟩
      have takesInside := takesBefore.append (takesOpening.append inside)
      have atClosing := takesInside.startingAt_offset
      refine ⟨opening, closing, takesBefore.offset_le, rfl, ?_, ?_, ?_, depth + 1, ?_⟩
      · rw [← Cursor.peek_startingAt, atOpening]
        rfl
      · rw [atContent, atClosing]
        exact content.read_eq
      · rw [← Cursor.peek_startingAt, atClosing]
        rfl
      · have group := takesOpening.append (inside.append (Cursor.takes_cons closing ')' rest))
        rw [← atOpening] at group
        rw [nestedBrackets_succ]
        exact group.eq_take

/-- An expression ends in front of no star, and in front of the end of the text, a closing
bracket, a dot or a bar unless the last character taken closes a group without an
expression. So an atom is left unread directly behind such a group only. -/
theorem expression_ends {text : List Char} {offset : Nat} {regex : Regex Char}
    (found : (readExpression (.startingAt text offset)).found = .expression regex) :
    let after := (readExpression (.startingAt text offset)).after
    after = .startingAt text after.offset ∧
      after.peek ≠ some '*' ∧
      (∀ next, after.peek = some next →
        next ∈ [')', '.', '|'] ∨ BehindEmptyGroup text offset after.offset) ∧
      ∀ next, after.peek = some next → next = '(' ∨ (Regex.leaf? next).isSome →
        BehindEmptyGroup text offset after.offset := by
  intro after
  have reads := reads_read .expression (.startingAt text offset)
  rcases reads.exists_takes with ⟨taken, takes⟩
  rcases reads.ends nofun found with ⟨noStar, givenUp⟩
  have stops : ∀ next, after.peek = some next →
      next ∈ [')', '.', '|'] ∨ BehindEmptyGroup text offset after.offset := by
    intro next peeked
    cases givenUp with
    | inl blocked =>
        have member := blocked next peeked
        simp only [List.mem_cons, List.not_mem_nil, or_false] at member
        rcases member with rfl | rfl | rfl | rfl
        · exact .inl (by decide)
        · exact absurd peeked noStar
        · exact .inl (by decide)
        · exact .inl (by decide)
    | inr leaves => exact .inr leaves.behindEmptyGroup
  refine ⟨takes.startingAt_offset.symm, noStar, stops, ?_⟩
  intro next peeked atom
  cases stops next peeked with
  | inl mark =>
      simp only [List.mem_cons, List.not_mem_nil, or_false] at mark
      rcases mark with rfl | rfl | rfl
      · exact absurd atom (by decide)
      · exact absurd atom (by decide)
      · exact absurd atom (by decide)
  | inr behind => exact behind

/-- Behind the bar the reader finds a group in a group, but no operand, and leaves the `b`. -/
theorem expression_ends_behind_nested_brackets :
    let text := "yx|(())b".toList
    let reading := readExpression (.startingAt text 1)
    reading.found = .expression (.token 'x') ∧ reading.after.peek = some 'b' ∧
      BehindEmptyGroup text 1 7 := by
  intro text reading
  have read : reading = ⟨.expression (.token 'x'), .startingAt text 7⟩ := by decide +kernel
  have found : reading.found = .expression (.token 'x') := by rw [read]
  have unread : reading.after.peek = some 'b' := by rw [read]; rfl
  rcases expression_ends found with ⟨_, _, _, atoms⟩
  have behind : BehindEmptyGroup text 1 reading.after.offset := atoms 'b' unread (.inr (by decide))
  rw [read] at behind
  exact ⟨found, unread, behind⟩

end Residual
