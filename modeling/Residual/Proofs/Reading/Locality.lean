import Residual.Proofs.Reading.Rules
import Residual.Proofs.Reading.Taking
import Residual.Regex.Parse

/-!
# Reading in another place

The reader looks at a character only after it has taken all the characters in front of it.
What an attempt finds therefore depends on the characters it takes and on the next one, and
neither on where they stand nor on what comes later; an offset in an error counts from the
beginning of the text and moves along. Attempts made one after the other keep this
property, because the character behind the first one is the first that the second takes or,
if it takes none, the one behind both.
-/

namespace Residual

namespace Finding

/-- The same finding of a reader that stands `distance` characters further on. -/
def shift (distance : Nat) : Finding → Finding
  | .expression regex => .expression regex
  | .nothing => .nothing
  | .unclosed opening => .unclosed (distance + opening)

@[simp] theorem shift_zero (found : Finding) : found.shift 0 = found := by
  cases found <;> simp [shift]

@[simp] theorem shift_shift (found : Finding) (near far : Nat) :
    (found.shift near).shift far = found.shift (far + near) := by
  cases found <;> simp [shift, Nat.add_assoc]

/-- What holds no offset is found the same in every place. -/
theorem shift_eq_of_shift_eq {found result : Finding} {near : Nat}
    (same : found.shift near = result) (located : ∀ opening, result ≠ .unclosed opening)
    (far : Nat) : found.shift far = result := by
  cases found with
  | expression | nothing => exact same
  | unclosed opening => exact absurd same.symm (located (near + opening))

theorem shift_eq (found : Finding) (located : ∀ opening, found ≠ .unclosed opening)
    (distance : Nat) : found.shift distance = found :=
  shift_eq_of_shift_eq found.shift_zero located distance

/-- The findings differ in the offset of an error at most. -/
def Alike : Finding → Finding → Prop
  | .unclosed _, .unclosed _ => True
  | found, other => found = other

theorem alike_shift (found : Finding) (near far : Nat) :
    (found.shift near).Alike (found.shift far) := by
  cases found with
  | expression | nothing => rfl
  | unclosed => exact trivial

theorem Alike.ne_expression {found other : Finding} (alike : found.Alike other)
    (none : ∀ regex, other ≠ .expression regex) (regex : Regex Char) :
    found ≠ .expression regex := by
  intro equal
  subst equal
  cases other with
  | expression | nothing => exact none regex alike.symm
  | unclosed => cases alike

theorem Alike.exists_unclosed {found : Finding} {opening : Nat}
    (alike : found.Alike (.unclosed opening)) : ∃ place, found = .unclosed place := by
  cases found with
  | expression | nothing => cases alike
  | unclosed place => exact ⟨place, rfl⟩

end Finding

/-! ## Attempts that can be moved -/

/-- The attempt comes to the same wherever the characters it took here are ahead and the
same one, or the end of the text, is behind them. -/
def Portable (attempt : Cursor → Reading → Prop) (start : Cursor) (reading : Reading) : Prop :=
  ∃ taken, ∃ found : Finding, start.Takes taken reading.after ∧
    reading.found = found.shift start.offset ∧
    ∀ other last, other.Takes taken last → last.peek = reading.after.peek →
      attempt other ⟨found.shift other.offset, last⟩

namespace Portable

variable {first second : Cursor → Reading → Prop} {start middle : Cursor} {reading : Reading}

theorem imp (portable : Portable first start reading)
    (step : ∀ cursor found last, found.Alike reading.found →
      first cursor ⟨found, last⟩ → second cursor ⟨found, last⟩) :
    Portable second start reading := by
  rcases portable with ⟨taken, found, takes, same, reads⟩
  refine ⟨taken, found, takes, same, ?_⟩
  intro other last takesThere next
  apply step other _ last
  · rw [same]
    exact found.alike_shift other.offset start.offset
  · exact reads other last takesThere next

/-- One attempt and then another from where the first one ended. -/
theorem andThen {found : Finding} (before : Portable first start ⟨found, middle⟩)
    (behind : Portable second middle reading) (located : ∀ opening, found ≠ .unclosed opening) :
    Portable (fun cursor result => ∃ between, first cursor ⟨found, between⟩ ∧ second between result)
      start reading := by
  rcases before with ⟨near, base, takesNear, sameNear, readsNear⟩
  rcases behind with ⟨far, last, takesFar, sameFar, readsFar⟩
  refine ⟨near ++ far, last.shift near.length, takesNear.append takesFar, ?_, ?_⟩
  · rw [sameFar, takesNear.offset, Finding.shift_shift]
  · intro other finish takes next
    rcases takes.split with ⟨between, takesBefore, takesBehind⟩
    -- What the first attempt may see behind itself is settled by the second one.
    have sameNext : between.peek = middle.peek := by
      rw [takesBehind.peek_eq, takesFar.peek_eq, next]
    have unmoved := base.shift_eq_of_shift_eq sameNear.symm located other.offset
    have readBefore := readsNear other between takesBefore sameNext
    have readBehind := readsFar between finish takesBehind next
    rw [unmoved] at readBefore
    rw [takesBefore.offset] at readBehind
    rw [Finding.shift_shift]
    exact ⟨between, readBefore, readBehind⟩

/-- Nothing is taken; what is found rests on the next character alone. -/
theorem stay (start : Cursor) (found : Finding) (located : ∀ opening, found ≠ .unclosed opening) :
    Portable (fun cursor result => cursor.peek = start.peek ∧ result = ⟨found, cursor⟩)
      start ⟨found, start⟩ := by
  refine ⟨[], found, start.takes_nil, (found.shift_eq located start.offset).symm, ?_⟩
  intro other last takes next
  rw [takes.eq_of_nil, found.shift_eq located]
  exact ⟨next, rfl⟩

/-- One certain character is taken. -/
theorem move (offset : Nat) (value : Char) (ahead : List Char) (found : Finding)
    (located : ∀ opening, found ≠ .unclosed opening) :
    Portable (fun cursor result => ∃ place rest, cursor = ⟨place, value :: rest⟩ ∧
        result = ⟨found, ⟨place + 1, rest⟩⟩)
      ⟨offset, value :: ahead⟩ ⟨found, ⟨offset + 1, ahead⟩⟩ := by
  refine ⟨[value], found, Cursor.takes_cons offset value ahead,
    (found.shift_eq located offset).symm, ?_⟩
  intro other last takes _
  refine ⟨other.offset, last.ahead, takes.eq_of_cons.1, ?_⟩
  rw [found.shift_eq located, ← takes.eq_of_cons.2]

/-- An expression that is given up for an error at the place where it began. -/
theorem fail {after : Cursor} {regex : Regex Char}
    (portable : Portable first start ⟨.expression regex, after⟩) :
    Portable (fun cursor result => first cursor ⟨.expression regex, result.after⟩ ∧
        result.after.peek = after.peek ∧ result.found = .unclosed cursor.offset)
      start ⟨.unclosed start.offset, after⟩ := by
  rcases portable with ⟨taken, found, takes, same, reads⟩
  refine ⟨taken, .unclosed 0, takes, rfl, ?_⟩
  intro other last takesThere next
  have read := reads other last takesThere next
  rw [Finding.shift_eq_of_shift_eq same.symm nofun] at read
  exact ⟨read, next, rfl⟩

/-- A step past a character that may be missing. -/
theorem skip (start : Cursor) (expected : Char) :
    Portable (fun cursor result => result = ⟨.nothing, cursor.skip expected⟩)
      start ⟨.nothing, start.skip expected⟩ := by
  rcases start.skip_cases expected with ⟨offset, ahead, rfl, skipped⟩ | ⟨other, kept⟩
  · rw [skipped]
    apply (move offset expected ahead .nothing nofun).imp
    intro cursor found last _ steps
    rcases steps with ⟨place, rest, rfl, equal⟩
    rw [Cursor.skip_cons_self]
    exact equal
  · rw [kept]
    apply (stay start .nothing nofun).imp
    intro cursor found last _ steps
    rcases steps with ⟨next, equal⟩
    rw [← next] at other
    rw [Cursor.skip_of_peek_ne other]
    exact equal

/-- An attempt behind a certain character. -/
theorem behind {offset : Nat} {value : Char} {ahead : List Char}
    (portable : Portable first ⟨offset + 1, ahead⟩ reading) :
    Portable (fun cursor result => ∃ place rest, cursor = ⟨place, value :: rest⟩ ∧
        first ⟨place + 1, rest⟩ result)
      ⟨offset, value :: ahead⟩ reading := by
  apply ((move offset value ahead .nothing nofun).andThen portable nofun).imp
  intro cursor found last _ steps
  rcases steps with ⟨between, ⟨place, rest, rfl, moved⟩, reads⟩
  cases moved
  exact ⟨place, rest, rfl, reads⟩

/-- An attempt behind a character that may be missing. -/
theorem past {expected : Char} (portable : Portable first (start.skip expected) reading) :
    Portable (fun cursor result => first (cursor.skip expected) result) start reading := by
  apply ((skip start expected).andThen portable nofun).imp
  intro cursor found last _ steps
  rcases steps with ⟨between, skipped, reads⟩
  cases skipped
  exact reads

end Portable

/-- Every attempt can be moved: its rule asks for nothing but attempts one after the other,
certain characters, and the next one. -/
theorem Reads.portable {task : Task} {start : Cursor} {reading : Reading}
    (reads : Reads task start reading) : Portable (Reads task) start reading := by
  induction reads with
  | compound _ _ atomIH operatorsIH =>
      apply (atomIH.andThen operatorsIH nofun).imp
      intro cursor found last _ steps
      rcases steps with ⟨between, atom, operators⟩
      exact .compound atom operators
  | headless _ none atomIH =>
      apply atomIH.imp
      intro cursor found last alike atom
      exact .headless atom (alike.ne_expression none)
  | @leaf offset value ahead regex isLeaf =>
      apply (Portable.move offset value ahead (.expression regex) nofun).imp
      intro cursor found last _ steps
      rcases steps with ⟨place, rest, rfl, equal⟩
      cases equal
      exact .leaf isLeaf
  | @blocked start blocked =>
      apply (Portable.stay start .nothing nofun).imp
      intro cursor found last _ steps
      rcases steps with ⟨next, equal⟩
      cases equal
      apply Reads.blocked
      rw [Cursor.Blocked, next]
      exact blocked
  | @group _ closing _ rest inner _ innerIH =>
      have bracket := Portable.move closing ')' rest (.expression inner) nofun
      have closed := innerIH.andThen bracket nofun
      apply closed.behind.imp
      intro cursor found last _ steps
      rcases steps with ⟨place, text, rfl, between, reads, stop, later, rfl, equal⟩
      cases equal
      exact .group reads
  -- This error alone is made here; those of the other rules were found by an attempt.
  | unclosedGroup _ unfinished innerIH =>
      apply innerIH.behind.fail.imp
      intro cursor found last _ steps
      rcases steps with ⟨⟨place, text, rfl, reads⟩, next, rfl⟩
      exact .unclosedGroup reads (next ▸ unfinished)
  | @emptyGroup _ _ after _ innerIH =>
      have closed := innerIH.andThen (Portable.skip after ')') nofun
      apply closed.behind.imp
      intro cursor found last _ steps
      rcases steps with ⟨place, text, rfl, between, reads, equal⟩
      cases equal
      exact .emptyGroup reads
  | brokenGroup _ innerIH =>
      apply innerIH.behind.imp
      intro cursor found last alike steps
      rcases steps with ⟨place, text, rfl, reads⟩
      rcases alike.exists_unclosed with ⟨opening, rfl⟩
      exact .brokenGroup reads
  | bar _ rightIH =>
      apply rightIH.behind.imp
      intro cursor found last _ steps
      rcases steps with ⟨place, text, rfl, reads⟩
      exact .bar reads
  | @noBar start other =>
      apply (Portable.stay start .nothing nofun).imp
      intro cursor found last _ steps
      rcases steps with ⟨next, equal⟩
      cases equal
      exact .noBar (next ▸ other)
  | concat _ _ rightIH restIH =>
      apply (rightIH.past.andThen restIH nofun).imp
      intro cursor found last _ steps
      rcases steps with ⟨between, right, rest⟩
      exact .concat right rest
  | brokenFactor _ rightIH =>
      apply rightIH.past.imp
      intro cursor found last alike right
      rcases alike.exists_unclosed with ⟨opening, rfl⟩
      exact .brokenFactor right
  | union _ _ _ factorIH rightIH restIH =>
      apply ((factorIH.past.andThen rightIH nofun).andThen restIH nofun).imp
      intro cursor found last _ steps
      rcases steps with ⟨between, ⟨idle, factor, right⟩, rest⟩
      exact .union factor right rest
  | brokenAlternative _ _ factorIH rightIH =>
      apply (factorIH.past.andThen rightIH nofun).imp
      intro cursor found last alike steps
      rcases steps with ⟨idle, factor, right⟩
      rcases alike.exists_unclosed with ⟨opening, rfl⟩
      exact .brokenAlternative factor right
  | star _ _ _ factorIH alternativeIH restIH =>
      have idle := factorIH.past.andThen alternativeIH nofun
      apply (idle.andThen restIH.behind nofun).imp
      intro cursor found last _ steps
      rcases steps with ⟨between, ⟨middle, factor, unused⟩, place, text, rfl, rest⟩
      exact .star factor unused rest
  | @done left _ _ last _ _ unstarred factorIH alternativeIH =>
      have idle := factorIH.past.andThen alternativeIH nofun
      apply (idle.andThen (Portable.stay last (.expression left) nofun) nofun).imp
      intro cursor found stop _ steps
      rcases steps with ⟨between, ⟨middle, factor, unused⟩, next, equal⟩
      cases equal
      exact .done factor unused (next ▸ unstarred)

theorem Reads.exists_takes {task : Task} {start : Cursor} {reading : Reading}
    (reads : Reads task start reading) : ∃ taken, start.Takes taken reading.after := by
  rcases reads.portable with ⟨taken, _, takes, _⟩
  exact ⟨taken, takes⟩

/-! ## The same text elsewhere -/

/-- Where the same characters and the same next one are ahead, the same way can be gone. -/
theorem Cursor.Takes.exists_takes {start after : Cursor} {taken : List Char}
    (takes : start.Takes taken after) (other : Cursor)
    (agree : other.ahead.take (taken.length + 1) = start.ahead.take (taken.length + 1)) :
    ∃ last, other.Takes taken last ∧ last.peek = after.peek := by
  rw [takes.ahead, List.take_length_add_append] at agree
  have front := congrArg (List.take taken.length) agree
  have next := congrArg (fun text => (List.drop taken.length text).head?) agree
  have split := List.take_append_drop taken.length other.ahead
  simp only [List.take_take, Nat.le_add_right, Nat.min_eq_left, List.take_left] at front
  simp only [List.drop_take, Nat.add_sub_cancel_left, List.drop_left, List.head?_take,
    Nat.one_ne_zero, if_false] at next
  rw [front] at split
  exact ⟨⟨other.offset + taken.length, other.ahead.drop taken.length⟩, ⟨split.symm, rfl⟩, next⟩

/-- The reader reads the same in front of the same characters and the same next one. -/
theorem Reads.elsewhere {text : List Char} {offset : Nat} {reading : Reading}
    (reads : Reads .expression (.startingAt text offset) reading) (other : List Char) (place : Nat)
    (agree : (other.drop place).take (reading.after.offset - offset + 1) =
      (text.drop offset).take (reading.after.offset - offset + 1)) :
    ∃ found : Finding,
      reading = ⟨found.shift offset, .startingAt text (offset + (reading.after.offset - offset))⟩ ∧
        readExpression (.startingAt other place) =
          ⟨found.shift place, .startingAt other (place + (reading.after.offset - offset))⟩ := by
  rcases reads.portable with ⟨taken, found, takes, same, elsewhere⟩
  have ends : reading.after.offset = offset + taken.length := takes.offset
  rw [ends, Nat.add_sub_cancel_left] at agree ⊢
  rcases takes.exists_takes (.startingAt other place) agree with ⟨last, takesThere, next⟩
  have there := (elsewhere (.startingAt other place) last takesThere next).read_eq
  refine ⟨found, ?_, ?_⟩
  · rw [← takes.eq_startingAt]
    exact congrArg (Reading.mk · reading.after) same
  · rw [← takesThere.eq_startingAt]
    exact there

/-- What is found depends on the characters taken and the next one only, and its offset,
if it is an error, moves with the place. So does the place where the reader stops. Text
behind the first character left unread does not change the expression of a text. -/
theorem reading_is_local :
    (∀ (text other : List Char) (offset place : Nat),
      let reading := readExpression (.startingAt text offset)
      let length := reading.after.offset - offset
      (other.drop place).take (length + 1) = (text.drop offset).take (length + 1) →
        ∃ found : Finding,
          reading = ⟨found.shift offset, .startingAt text (offset + length)⟩ ∧
            readExpression (.startingAt other place) =
              ⟨found.shift place, .startingAt other (place + length)⟩) ∧
      ∀ text other : String,
        let stop := (readExpression (.ofString text)).after.offset
        other.toList.take (stop + 1) = text.toList.take (stop + 1) →
          (Regex.parse other).value = (Regex.parse text).value := by
  constructor
  · intro text other offset place reading length agree
    exact (reads_read .expression (.startingAt text offset)).elsewhere other place agree
  · intro text other stop agree
    have reads := reads_read .expression (.startingAt text.toList 0)
    have moved : ∃ found : Finding, readExpression (.ofString text) =
          ⟨found.shift 0, .startingAt text.toList (0 + stop)⟩ ∧
        readExpression (.ofString other) =
          ⟨found.shift 0, .startingAt other.toList (0 + stop)⟩ :=
      reads.elsewhere other.toList 0 agree
    rcases moved with ⟨found, here, there⟩
    rw [Regex.value_parse, Regex.value_parse, here, there]
    rfl

/-- The group behind `cc` holds an `a` and is left at the second dot. In front of another text
it is the same error, two characters earlier. What follows the closing bracket behind `a|b`
makes no difference to the union. -/
theorem reading_of_broken_group_moves :
    let text := "cc(a..)".toList
    let other := "(a..*)b".toList
    readExpression (.startingAt text 2) = ⟨.unclosed 2, .startingAt text 5⟩ ∧
      readExpression (.startingAt other 0) = ⟨.unclosed 0, .startingAt other 3⟩ ∧
      (Regex.parse "a|b)((").value = (Regex.parse "a|b)").value := by
  intro text other
  have reading : readExpression (.startingAt text 2) = ⟨.unclosed 2, .startingAt text 5⟩ := by
    decide +kernel
  have stop : (readExpression (.ofString "a|b)")).after.offset = 3 := by decide +kernel
  rcases reading_is_local with ⟨moves, keeps⟩
  have there := moves text other 2 0
  rw [reading] at there
  rcases there rfl with ⟨found, here, there⟩
  refine ⟨reading, ?_, ?_⟩
  · cases found with
    | expression | nothing => cases here
    | unclosed opening =>
        have opened : 2 = 2 + opening := Finding.unclosed.inj (Reading.mk.inj here).1
        have atStart : opening = 0 := by omega
        rw [there, atStart]
        rfl
  · apply keeps
    rw [stop]
    decide

end Residual
