import Residual.Proofs.Reading.Stops

/-!
# Progress of the reader

An attempt never leaves the text and takes a character unless it comes to nothing, and each
round of the operators that finds a new left operand takes one more. So every attempt ends.
Of several attempts, each made from where the one before it stopped, the first that takes no
character is repeated by all later ones.
-/

namespace Residual

namespace Cursor

/-- The cursor is one of the text. -/
structure StandsIn (cursor : Cursor) (text : List Char) : Prop where
  placed : cursor = startingAt text cursor.offset
  inside : cursor.offset ≤ text.length

theorem standsIn_startingAt {text : List Char} {offset : Nat} (inside : offset ≤ text.length) :
    (startingAt text offset).StandsIn text := ⟨rfl, inside⟩

variable {text taken : List Char} {start after : Cursor}

theorem Takes.standsIn (takes : start.Takes taken after) (stands : start.StandsIn text) :
    after.StandsIn text := by
  have place : after.offset = start.offset + taken.length := takes.offset
  have inside := stands.inside
  have ahead : text.drop start.offset = taken ++ after.ahead := by
    rw [← takes.ahead, stands.placed]
    rfl
  have lengths := congrArg List.length ahead
  rw [List.length_drop, List.length_append] at lengths
  rw [stands.placed] at takes
  exact ⟨takes.startingAt_offset.symm, by omega⟩

/-- Less is left behind a character that was taken. -/
theorem Takes.offset_lt (takes : start.Takes taken after) (shorter : after.length < start.length) :
    start.offset < after.offset := by
  rw [length, length, takes.ahead, List.length_append] at shorter
  rw [takes.offset]
  omega

/-- A way that takes no character leads nowhere else. -/
theorem Takes.eq_of_offset_eq (takes : start.Takes taken after)
    (kept : after.offset = start.offset) : after = start := by
  have place : after.offset = start.offset + taken.length := takes.offset
  have none : taken = [] := List.eq_nil_of_length_eq_zero (by omega)
  rw [none] at takes
  exact takes.eq_of_nil.symm

end Cursor

/-- What an attempt takes is ahead of its start. -/
theorem Task.exists_takes (task : Task) (start : Cursor) :
    ∃ taken, start.Takes taken (task.read start).after :=
  (reads_read task start).exists_takes

/-! ## The rounds of the operators -/

/-- What one round of the operators comes to. -/
inductive Round where
  /-- There is a new left operand, and another round begins behind it. -/
  | again (left : Regex Char) (after : Cursor)
  /-- This was the last round. -/
  | stop (reading : Reading)

/-- One round of the operators behind `left`. -/
def operatorRound (left : Regex Char) (start : Cursor) : Round :=
  match readFactor start with
  | ⟨.unclosed opening, after⟩ => .stop ⟨.unclosed opening, after⟩
  | ⟨.expression right, after⟩ => .again (.concat left right) after
  | ⟨.nothing, middle⟩ =>
      match readAlternative middle with
      | ⟨.unclosed opening, after⟩ => .stop ⟨.unclosed opening, after⟩
      | ⟨.expression right, after⟩ => .again (.union left right) after
      | ⟨.nothing, last⟩ =>
          match last.eat? '*' with
          | some after => .again (.star left) after
          | none => .stop ⟨.expression left, last⟩

/-- The operators are read round by round. -/
theorem readOperators_eq_round (left : Regex Char) (start : Cursor) :
    readOperators left start =
      match operatorRound left start with
      | .again next after => readOperators next after
      | .stop reading => reading := by
  rw [readOperators_eq, operatorRound]
  rcases readFactor start with ⟨found, middle⟩
  cases found with
  | expression | unclosed => rfl
  | nothing =>
      simp only
      rcases readAlternative middle with ⟨found, last⟩
      cases found with
      | expression | unclosed => rfl
      | nothing =>
          simp only
          cases last.eat? '*' <;> rfl

/-- A new left operand is a concatenation, a union or a star. -/
theorem operatorRound_eq_again {left next : Regex Char} {start after : Cursor}
    (round : operatorRound left start = .again next after) :
    (∃ right, next = .concat left right ∧ readFactor start = ⟨.expression right, after⟩) ∨
      ∃ middle, readFactor start = ⟨.nothing, middle⟩ ∧
        ((∃ right, next = .union left right ∧
            readAlternative middle = ⟨.expression right, after⟩) ∨
          ∃ last, next = .star left ∧ readAlternative middle = ⟨.nothing, last⟩ ∧
            last.eat? '*' = some after) := by
  unfold operatorRound at round
  split at round
  · cases round
  · next right _ factor =>
      cases round
      exact .inl ⟨right, rfl, factor⟩
  · next middle factor =>
      refine .inr ⟨middle, factor, ?_⟩
      split at round
      · cases round
      · next right _ alternative =>
          cases round
          exact .inl ⟨right, rfl, alternative⟩
      · next last alternative =>
          split at round
          · next starred =>
              cases round
              exact .inr ⟨last, rfl, alternative, starred⟩
          · cases round

theorem reads_factor {start : Cursor} {reading : Reading} (read : readFactor start = reading) :
    Reads .expression (start.skip '.') reading := by
  rw [← read, readFactor_eq_expression]
  exact reads_read .expression (start.skip '.')

/-- A round with a new left operand takes a character. -/
theorem operatorRound_advances {left next : Regex Char} {start after : Cursor}
    (round : operatorRound left start = .again next after) :
    (∃ taken, start.Takes taken after) ∧ after.length < start.length := by
  have factorAdvances := readFactor_advances start
  rcases operatorRound_eq_again round with ⟨right, _, factor⟩ | ⟨middle, factor, operator⟩
  · rw [factor] at factorAdvances
    exact ⟨(reads_factor factor).exists_takes_factor, factorAdvances⟩
  · rw [factor] at factorAdvances
    have kept : middle.length ≤ start.length := factorAdvances
    have alternativeAdvances := readAlternative_advances middle
    have reads := reads_read .alternative middle
    have ways := (reads_factor factor).exists_takes_round reads
    rcases operator with ⟨right, _, alternative⟩ | ⟨last, _, alternative, starred⟩
    · rw [Task.read, alternative] at ways
      rw [alternative] at alternativeAdvances
      have shorter : after.length < middle.length := alternativeAdvances
      exact ⟨ways, Nat.lt_of_lt_of_le shorter kept⟩
    · rw [Task.read, alternative] at ways
      rw [alternative] at alternativeAdvances
      have keptStill : last.length ≤ middle.length := alternativeAdvances
      have shorter : after.length < last.length := Cursor.length_eat?_lt starred
      rcases Cursor.eat?_eq_some.mp starred with ⟨offset, ahead, rfl, rfl⟩
      rcases ways with ⟨taken, takes⟩
      refine ⟨⟨_, takes.append (Cursor.takes_cons offset '*' ahead)⟩, ?_⟩
      exact Nat.lt_of_lt_of_le shorter (Nat.le_trans keptStill kept)

/-- The rounds of the operators behind a left operand up to the last one: where each of those
before it stopped, and what the last one came to. -/
inductive Rounds : Regex Char → Cursor → List Cursor → Reading → Prop where
  | stop {left : Regex Char} {start : Cursor} {reading : Reading} :
      operatorRound left start = .stop reading → Rounds left start [] reading
  | again {left next : Regex Char} {start middle : Cursor} {places : List Cursor}
      {reading : Reading} :
      operatorRound left start = .again next middle → Rounds next middle places reading →
        Rounds left start (middle :: places) reading

/-- There is a last round. -/
theorem exists_rounds (left : Regex Char) (start : Cursor) :
    ∃ places, Rounds left start places (readOperators left start) := by
  rw [readOperators_eq_round]
  cases round : operatorRound left start with
  | stop reading => exact ⟨[], .stop round⟩
  | again next middle =>
      have shorter := (operatorRound_advances round).2
      obtain ⟨places, rounds⟩ := exists_rounds next middle
      exact ⟨middle :: places, .again round rounds⟩
termination_by start.length

namespace Rounds

variable {left : Regex Char} {start : Cursor} {places : List Cursor} {reading : Reading}

theorem read_eq (rounds : Rounds left start places reading) :
    readOperators left start = reading := by
  induction rounds with
  | stop round => rw [readOperators_eq_round, round]
  | again round _ ih =>
      rw [readOperators_eq_round, round]
      exact ih

/-- Every round but the last one stops further on. -/
theorem pairwise_offset_lt (rounds : Rounds left start places reading) :
    (start :: places).Pairwise fun place later => place.offset < later.offset := by
  induction rounds with
  | stop => exact List.pairwise_singleton _ _
  | @again _ _ start middle places _ round _ ih =>
      obtain ⟨⟨_, takes⟩, shorter⟩ := operatorRound_advances round
      have further : start.offset < middle.offset := takes.offset_lt shorter
      refine List.pairwise_cons.mpr ⟨?_, ih⟩
      intro later member
      cases List.mem_cons.mp member with
      | inl same => rw [same]; exact further
      | inr behind => exact Nat.lt_trans further ((List.pairwise_cons.mp ih).1 later behind)

/-- There are no more rounds than characters taken in them. -/
theorem length_le (rounds : Rounds left start places reading) :
    start.offset + places.length ≤ reading.after.offset := by
  induction rounds with
  | @stop left start reading round =>
      have read : readOperators left start = reading := (Rounds.stop round).read_eq
      obtain ⟨_, takes⟩ := Task.exists_takes (.operators left) start
      rw [← read]
      exact takes.offset_le
  | again round _ ih =>
      obtain ⟨⟨_, takes⟩, shorter⟩ := operatorRound_advances round
      have further := takes.offset_lt shorter
      rw [List.length_cons]
      omega

end Rounds

/-! ## One attempt -/

theorem readExpression_offset_lt {start : Cursor}
    (something : (readExpression start).found ≠ .nothing) :
    start.offset < (readExpression start).after.offset := by
  obtain ⟨_, takes⟩ := Task.exists_takes .expression start
  apply takes.offset_lt
  have advances := readExpression_advances start
  rw [Reading.Advances] at advances
  split at advances
  · next nothing => exact absurd nothing something
  · exact advances
  · exact advances

/-- An attempt that takes no character comes to nothing. -/
theorem readExpression_eq_of_offset_eq {start : Cursor}
    (kept : (readExpression start).after.offset = start.offset) :
    readExpression start = ⟨.nothing, start⟩ := by
  obtain ⟨_, takes⟩ := Task.exists_takes .expression start
  have stays : (readExpression start).after = start := takes.eq_of_offset_eq kept
  have nothing : (readExpression start).found = .nothing := by
    apply Classical.byContradiction
    intro something
    have further := readExpression_offset_lt something
    omega
  calc
    readExpression start = ⟨(readExpression start).found, (readExpression start).after⟩ := rfl
    _ = ⟨.nothing, start⟩ := by rw [nothing, stays]

/-- Without an expression only a group is entered. -/
theorem peek_of_nothing_taken {start : Cursor}
    (nothing : (readExpression start).found = .nothing)
    (moved : (readExpression start).after.offset ≠ start.offset) : start.peek = some '(' := by
  have reads : Reads .expression start ⟨.nothing, (readExpression start).after⟩ := by
    rw [← nothing]
    exact reads_read .expression start
  rcases reads.nothing_cases with ⟨_, stays⟩ | ⟨_, _, _, opened, _⟩
  · exact absurd (congrArg Cursor.offset stays) moved
  · rw [opened]
    rfl

/-! ## Attempts one after the other -/

namespace Cursor

/-- Where so many attempts lead, each made from where the one before it stopped. -/
def afterReads (start : Cursor) : Nat → Cursor
  | 0 => start
  | attempts + 1 => (readExpression (start.afterReads attempts)).after

/-- Each attempt that moves the cursor takes a character. -/
theorem countP_moves_le (start : Cursor) (attempts : Nat) :
    start.offset + (List.range attempts).countP
        (fun attempt => start.afterReads (attempt + 1) ≠ start.afterReads attempt) ≤
      (start.afterReads attempts).offset := by
  induction attempts with
  | zero => exact Nat.le_refl _
  | succ attempts ih =>
      obtain ⟨taken, takes⟩ := Task.exists_takes .expression (start.afterReads attempts)
      have ways : (start.afterReads attempts).Takes taken (start.afterReads (attempts + 1)) := takes
      have forward := ways.offset_le
      rw [List.range_succ, List.countP_append, List.countP_singleton]
      split
      · next moved =>
          have changed : start.afterReads (attempts + 1) ≠ start.afterReads attempts := by
            simpa using moved
          have further :
              (start.afterReads (attempts + 1)).offset ≠ (start.afterReads attempts).offset :=
            fun kept => changed (ways.eq_of_offset_eq kept)
          omega
      · omega

theorem StandsIn.afterReads {text : List Char} {start : Cursor} (stands : start.StandsIn text)
    (attempts : Nat) : (start.afterReads attempts).StandsIn text := by
  induction attempts with
  | zero => exact stands
  | succ attempts ih =>
      obtain ⟨_, takes⟩ := Task.exists_takes .expression (start.afterReads attempts)
      exact takes.standsIn ih

/-- Behind an attempt that comes to nothing and takes no character the cursor stays. -/
theorem afterReads_of_idle {start : Cursor} {attempt later : Nat}
    (idle : readExpression (start.afterReads attempt) = ⟨.nothing, start.afterReads attempt⟩)
    (behind : attempt ≤ later) : start.afterReads later = start.afterReads attempt := by
  induction behind with
  | refl => rfl
  | step _ ih => rw [afterReads, ih, idle]

end Cursor

/-- Every attempt comes to its end by finitely many rules, and stops in the text but not in front
of its start. It takes a character if it finds an expression or an error, and if it finds nothing
it takes one only in a group. The operators are read in rounds, each of which stops further on
than the one before unless it is the last. Of attempts one after the other no more move the
cursor than there are characters; behind one that does not, all find nothing in the same place. -/
theorem reader_advances_and_ends {text : List Char} {offset : Nat} (inside : offset ≤ text.length) :
    let start := Cursor.startingAt text offset
    let reading := readExpression start
    (∀ task : Task, Reads task start (task.read start) ∧
      offset ≤ (task.read start).after.offset ∧ (task.read start).after.StandsIn text) ∧
      (reading.found ≠ .nothing → offset < reading.after.offset) ∧
      (∀ left, ∃ places, Rounds left start places (readOperators left start) ∧
        ((start :: places).Pairwise fun place later => place.offset < later.offset) ∧
        offset + places.length ≤ (readOperators left start).after.offset) ∧
      (reading.found = .nothing → reading.after.offset ≠ offset → text[offset]? = some '(') ∧
      (∀ attempts, (List.range attempts).countP
          (fun attempt => start.afterReads (attempt + 1) ≠ start.afterReads attempt) ≤
        text.length) ∧
      ∀ attempt, (start.afterReads (attempt + 1)).offset = (start.afterReads attempt).offset →
        ∀ later, attempt ≤ later →
          readExpression (start.afterReads later) = ⟨.nothing, start.afterReads attempt⟩ := by
  intro start reading
  have stands : start.StandsIn text := Cursor.standsIn_startingAt inside
  refine ⟨?_, readExpression_offset_lt, ?_, ?_, ?_, ?_⟩
  · intro task
    obtain ⟨_, takes⟩ := task.exists_takes start
    exact ⟨reads_read task start, takes.offset_le, takes.standsIn stands⟩
  · intro left
    obtain ⟨places, rounds⟩ := exists_rounds left start
    exact ⟨places, rounds, rounds.pairwise_offset_lt, rounds.length_le⟩
  · intro nothing moved
    rw [← Cursor.peek_startingAt]
    exact peek_of_nothing_taken nothing moved
  · intro attempts
    have moves := start.countP_moves_le attempts
    have last := (stands.afterReads attempts).inside
    exact Nat.le_trans (Nat.le_trans (Nat.le_add_left _ _) moves) last
  · intro attempt kept later behind
    have idle := readExpression_eq_of_offset_eq kept
    rw [Cursor.afterReads_of_idle idle behind]
    exact idle

/-- The first attempt stops behind an empty group, the second one in a group that is left
open, and the third one at the end of the text, where the others find nothing either. -/
theorem reader_ends_behind_open_group :
    let text := "a()b|(c".toList
    let start := Cursor.startingAt text 0
    readExpression start = ⟨.expression (.token 'a'), .startingAt text 3⟩ ∧
      0 < (readExpression start).after.offset ∧
      readExpression (.startingAt text 3) = ⟨.unclosed 5, .startingAt text 7⟩ ∧
      ∀ later, 2 ≤ later →
        readExpression (start.afterReads later) = ⟨.nothing, .startingAt text 7⟩ := by
  intro text start
  have first : readExpression start = ⟨.expression (.token 'a'), .startingAt text 3⟩ := by
    decide +kernel
  have second : readExpression (.startingAt text 3) = ⟨.unclosed 5, .startingAt text 7⟩ := by
    decide +kernel
  obtain ⟨_, advances, _, _, _, settles⟩ := reader_advances_and_ends (by decide : 0 ≤ text.length)
  refine ⟨first, advances (by rw [first]; nofun), second, ?_⟩
  have reached : start.afterReads 2 = .startingAt text 7 := by decide +kernel
  have idle : (start.afterReads 3).offset = (start.afterReads 2).offset := by decide +kernel
  rw [← reached]
  exact settles 2 idle

end Residual
