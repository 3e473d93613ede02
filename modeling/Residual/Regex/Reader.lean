import Residual.Regex.Basic
import Residual.Text.Cursor

/-!
# Reading expressions

The reader takes an expression greedily from where the cursor stands. Behind an atom it
tries, again and again, to go on with a concatenation (the dot is optional), a union or a
star, in this order. The right operand of the first two is a whole expression, so binary
operators group to the right. The cursor never moves back: a character taken by an
attempt that then comes to nothing stays taken, and what cannot continue an expression
stays ahead.

Every function returns its reading together with the fact that the cursor did not move
back, and that it moved forward if there was an expression or an error. The recursion ends
by this fact, which is needed exactly where an attempt is made from the place that a
failed one left.
-/

namespace Residual

/-- Characters that are never read as tokens. -/
def reserved : List Char := ['∅', 'ε', '|', '*', '.', '(', ')']

/-- Whether a character is kept for the notation of expressions. -/
def isReserved (value : Char) : Bool := reserved.contains value

/-- What an attempt to read an expression came to. -/
inductive Finding where
  /-- An expression was read. -/
  | expression : Regex Char → Finding
  /-- No expression begins here. -/
  | nothing : Finding
  /-- An expression in a group is not followed by the closing bracket; the offset is that
  of the opening one. -/
  | unclosed : (opening : Nat) → Finding
  deriving DecidableEq, Repr

/-- The result of an attempt: what was found and where the cursor then stands. -/
structure Reading where
  found : Finding
  after : Cursor
  deriving DecidableEq, Repr

namespace Reading

/-- A reading that started at `start` moved forward: it took a character unless it found
nothing, and then it did not move back. -/
def Advances (start : Cursor) (reading : Reading) : Prop :=
  match reading.found with
  | .nothing => reading.after.length ≤ start.length
  | .expression _ | .unclosed _ => reading.after.length < start.length

/-- A reading that went on from `start` with an expression already in hand: it did not
move back, and it kept an expression or failed. -/
def Continues (start : Cursor) (reading : Reading) : Prop :=
  reading.after.length ≤ start.length ∧ reading.found ≠ .nothing

theorem Advances.le {start : Cursor} {reading : Reading} (advances : reading.Advances start) :
    reading.after.length ≤ start.length := by
  obtain ⟨found, after⟩ := reading
  cases found with
  | expression | unclosed => exact Nat.le_of_lt advances
  | nothing => exact advances

theorem Advances.trans {start middle : Cursor} {reading : Reading}
    (advances : reading.Advances middle) (le : middle.length ≤ start.length) :
    reading.Advances start := by
  obtain ⟨found, after⟩ := reading
  cases found with
  | expression | unclosed => exact Nat.lt_of_lt_of_le advances le
  | nothing => exact Nat.le_trans advances le

theorem Continues.trans {start middle : Cursor} {reading : Reading}
    (continues : reading.Continues middle) (le : middle.length ≤ start.length) :
    reading.Continues start :=
  ⟨Nat.le_trans continues.1 le, continues.2⟩

theorem Continues.advances {start middle : Cursor} {reading : Reading}
    (continues : reading.Continues middle) (lt : middle.length < start.length) :
    reading.Advances start := by
  obtain ⟨found, after⟩ := reading
  cases found with
  | expression | unclosed => exact Nat.lt_of_le_of_lt continues.1 lt
  | nothing => exact absurd rfl continues.2

end Reading

namespace Reader

open Reading

mutual

/-- An atom and the operators behind it. -/
def expression (start : Cursor) : { reading : Reading // reading.Advances start } :=
  match atom start with
  | ⟨⟨.expression left, after⟩, advances⟩ =>
      let ⟨reading, continues⟩ := operators left after
      ⟨reading, continues.advances advances⟩
  | ⟨⟨.nothing, after⟩, advances⟩ => ⟨⟨.nothing, after⟩, advances⟩
  | ⟨⟨.unclosed opening, after⟩, advances⟩ => ⟨⟨.unclosed opening, after⟩, advances⟩
termination_by 4 * start.length + 1
decreasing_by
  · omega
  · have shorter : after.length < start.length := advances
    omega

/-- A leaf or a group. -/
def atom (start : Cursor) : { reading : Reading // reading.Advances start } :=
  match next : start.peek with
  | none => ⟨⟨.nothing, start⟩, Nat.le_refl _⟩
  | some value =>
      if value = '∅' then ⟨⟨.expression .empty, start.advance⟩, start.length_advance_lt next⟩
      else if value = 'ε' then
        ⟨⟨.expression .epsilon, start.advance⟩, start.length_advance_lt next⟩
      else if value = '(' then
        match expression start.advance with
        | ⟨⟨.unclosed opening, after⟩, advances⟩ =>
            ⟨⟨.unclosed opening, after⟩, advances.trans start.length_advance_le⟩
        | ⟨⟨.nothing, after⟩, advances⟩ =>
            ⟨⟨.nothing, after.skip ')'⟩,
              Nat.le_trans (after.length_skip_le ')') (advances.trans start.length_advance_le)⟩
        | ⟨⟨.expression inner, after⟩, advances⟩ =>
            match closed : after.eat? ')' with
            | some rest =>
                ⟨⟨.expression inner, rest⟩,
                  Nat.lt_trans (after.length_eat?_lt closed) (advances.trans start.length_advance_le)⟩
            | none =>
                ⟨⟨.unclosed start.offset, after⟩, advances.trans start.length_advance_le⟩
      else if isReserved value then ⟨⟨.nothing, start⟩, Nat.le_refl _⟩
      else ⟨⟨.expression (.token value), start.advance⟩, start.length_advance_lt next⟩
termination_by 4 * start.length
decreasing_by
  have shorter := start.length_advance_lt next
  omega

/-- The right operand of a concatenation, behind a dot that may be left out. -/
def factor (start : Cursor) : { reading : Reading // reading.Advances start } :=
  if start.hasMore then
    let ⟨reading, advances⟩ := expression (start.skip '.')
    ⟨reading, advances.trans (start.length_skip_le '.')⟩
  else ⟨⟨.nothing, start⟩, Nat.le_refl _⟩
termination_by 4 * start.length + 2
decreasing_by
  have := start.length_skip_le '.'
  omega

/-- The right operand of a union, behind its bar. -/
def alternative (start : Cursor) : { reading : Reading // reading.Advances start } :=
  match bar : start.eat? '|' with
  | some after =>
      let ⟨reading, advances⟩ := expression after
      ⟨reading, advances.trans (Nat.le_of_lt (start.length_eat?_lt bar))⟩
  | none => ⟨⟨.nothing, start⟩, Nat.le_refl _⟩
termination_by 4 * start.length + 2
decreasing_by
  have := start.length_eat?_lt bar
  omega

/-- Goes on with the operators behind `left` for as long as one applies. -/
def operators (left : Regex Char) (start : Cursor) :
    { reading : Reading // reading.Continues start } :=
  match factor start with
  | ⟨⟨.unclosed opening, after⟩, advances⟩ =>
      ⟨⟨.unclosed opening, after⟩, advances.le, by simp⟩
  | ⟨⟨.expression right, after⟩, advances⟩ =>
      let ⟨reading, continues⟩ := operators (.concat left right) after
      ⟨reading, continues.trans advances.le⟩
  | ⟨⟨.nothing, middle⟩, noFactor⟩ =>
      match alternative middle with
      | ⟨⟨.unclosed opening, after⟩, advances⟩ =>
          ⟨⟨.unclosed opening, after⟩, Nat.le_trans advances.le noFactor, by simp⟩
      | ⟨⟨.expression right, after⟩, advances⟩ =>
          let ⟨reading, continues⟩ := operators (.union left right) after
          ⟨reading, continues.trans (Nat.le_trans advances.le noFactor)⟩
      | ⟨⟨.nothing, last⟩, noAlternative⟩ =>
          match starred : last.eat? '*' with
          | some after =>
              let ⟨reading, continues⟩ := operators (.star left) after
              ⟨reading, continues.trans (Nat.le_trans (Nat.le_of_lt (last.length_eat?_lt starred))
                (Nat.le_trans noAlternative noFactor))⟩
          | none => ⟨⟨.expression left, last⟩, Nat.le_trans noAlternative noFactor, by simp⟩
termination_by 4 * start.length + 3
decreasing_by
  · omega
  · have shorter : after.length < start.length := advances
    omega
  · have kept : middle.length ≤ start.length := noFactor
    omega
  · have kept : middle.length ≤ start.length := noFactor
    have shorter : after.length < middle.length := advances
    omega
  · have kept : middle.length ≤ start.length := noFactor
    have keptStill : last.length ≤ middle.length := noAlternative
    have shorter := last.length_eat?_lt starred
    omega

end

end Reader

/-! ## The reading rules

The functions below forget what is known about their results. Their equations are the
rules of the reader in full, and nothing later unfolds the recursion itself. -/

/-- Reads an expression from where the cursor stands. -/
def readExpression (start : Cursor) : Reading := (Reader.expression start).val

/-- Reads a leaf or a group. -/
def readAtom (start : Cursor) : Reading := (Reader.atom start).val

/-- Reads the right operand of a concatenation. -/
def readFactor (start : Cursor) : Reading := (Reader.factor start).val

/-- Reads the right operand of a union. -/
def readAlternative (start : Cursor) : Reading := (Reader.alternative start).val

/-- Reads the operators behind `left`. -/
def readOperators (left : Regex Char) (start : Cursor) : Reading :=
  (Reader.operators left start).val

theorem readExpression_advances (start : Cursor) :
    (readExpression start).Advances start := (Reader.expression start).property

theorem readAtom_advances (start : Cursor) : (readAtom start).Advances start :=
  (Reader.atom start).property

theorem readFactor_advances (start : Cursor) : (readFactor start).Advances start :=
  (Reader.factor start).property

theorem readAlternative_advances (start : Cursor) :
    (readAlternative start).Advances start := (Reader.alternative start).property

theorem readOperators_continues (left : Regex Char) (start : Cursor) :
    (readOperators left start).Continues start := (Reader.operators left start).property

theorem readExpression_eq (start : Cursor) :
    readExpression start =
      match readAtom start with
      | ⟨.expression left, after⟩ => readOperators left after
      | reading => reading := by
  unfold readExpression readAtom
  rw [Reader.expression]
  split
  · next left after _ atomEq => simp only [atomEq]; rfl
  · next after _ atomEq => simp only [atomEq]
  · next opening after _ atomEq => simp only [atomEq]

theorem readAtom_eq (start : Cursor) :
    readAtom start =
      match start.peek with
      | none => ⟨.nothing, start⟩
      | some value =>
          if value = '∅' then ⟨.expression .empty, start.advance⟩
          else if value = 'ε' then ⟨.expression .epsilon, start.advance⟩
          else if value = '(' then
            match readExpression start.advance with
            | ⟨.unclosed opening, after⟩ => ⟨.unclosed opening, after⟩
            | ⟨.nothing, after⟩ => ⟨.nothing, after.skip ')'⟩
            | ⟨.expression inner, after⟩ =>
                match after.eat? ')' with
                | some rest => ⟨.expression inner, rest⟩
                | none => ⟨.unclosed start.offset, after⟩
          else if isReserved value then ⟨.nothing, start⟩
          else ⟨.expression (.token value), start.advance⟩ := by
  unfold readAtom readExpression
  rw [Reader.atom]
  split
  · next next => simp only [next]
  · next value next =>
      simp only [next]
      split
      · rfl
      split
      · rfl
      split
      · split
        · next opening after _ innerEq => simp only [innerEq]
        · next after _ innerEq => simp only [innerEq]
        · next inner after _ innerEq =>
            simp only [innerEq]
            split
            · next rest closed => simp only [closed]
            · next closed => simp only [closed]
      split <;> rfl

theorem readFactor_eq (start : Cursor) :
    readFactor start =
      if start.hasMore then readExpression (start.skip '.') else ⟨.nothing, start⟩ := by
  unfold readFactor readExpression
  rw [Reader.factor]
  split <;> rfl

theorem readAlternative_eq (start : Cursor) :
    readAlternative start =
      match start.eat? '|' with
      | some after => readExpression after
      | none => ⟨.nothing, start⟩ := by
  unfold readAlternative readExpression
  rw [Reader.alternative]
  split
  · next after bar => simp only [bar]
  · next bar => simp only [bar]

theorem readOperators_eq (left : Regex Char) (start : Cursor) :
    readOperators left start =
      match readFactor start with
      | ⟨.unclosed opening, after⟩ => ⟨.unclosed opening, after⟩
      | ⟨.expression right, after⟩ => readOperators (.concat left right) after
      | ⟨.nothing, middle⟩ =>
          match readAlternative middle with
          | ⟨.unclosed opening, after⟩ => ⟨.unclosed opening, after⟩
          | ⟨.expression right, after⟩ => readOperators (.union left right) after
          | ⟨.nothing, last⟩ =>
              match last.eat? '*' with
              | some after => readOperators (.star left) after
              | none => ⟨.expression left, last⟩ := by
  unfold readOperators readFactor readAlternative
  rw [Reader.operators]
  split
  · next opening after _ factorEq => simp only [factorEq]
  · next right after _ factorEq => simp only [factorEq]
  · next middle _ factorEq =>
      simp only [factorEq]
      split
      · next opening after _ alternativeEq => simp only [alternativeEq]
      · next right after _ alternativeEq => simp only [alternativeEq]
      · next last _ alternativeEq =>
          simp only [alternativeEq]
          split
          · next after starred => simp only [starred]
          · next starred => simp only [starred]

end Residual
