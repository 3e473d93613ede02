/-!
# Cursors in a text

A cursor is what a reader holds while it works through a text: the characters still ahead
and the number of those already taken. It only moves forward. Every operation either
leaves the cursor where it is or moves it past the next character, so what lies ahead is
always a final part of the text that the cursor was made from.
-/

namespace Residual

/-- A position in a text: how many characters lie behind it and which lie ahead. -/
structure Cursor where
  /-- The number of characters taken so far. -/
  offset : Nat
  /-- The characters not taken yet. -/
  ahead : List Char
  deriving DecidableEq, Repr

namespace Cursor

/-- The cursor at the beginning of a text. -/
def ofString (text : String) : Cursor := ⟨0, text.toList⟩

/-- The cursor that has taken the first `offset` characters of a text. -/
def startingAt (text : List Char) (offset : Nat) : Cursor := ⟨offset, text.drop offset⟩

/-- Whether a character is left. -/
def hasMore (cursor : Cursor) : Bool := !cursor.ahead.isEmpty

/-- The next character, which stays ahead. -/
def peek (cursor : Cursor) : Option Char := cursor.ahead.head?

/-- Moves past the next character, if there is one. -/
def advance (cursor : Cursor) : Cursor :=
  match cursor.ahead with
  | [] => cursor
  | _ :: ahead => ⟨cursor.offset + 1, ahead⟩

/-- The cursor behind the next character if that is `expected`. -/
def eat? (cursor : Cursor) (expected : Char) : Option Cursor :=
  if cursor.peek = some expected then some cursor.advance else none

/-- Moves past the next character if it is `expected`. -/
def skip (cursor : Cursor) (expected : Char) : Cursor :=
  (cursor.eat? expected).getD cursor

/-- Takes the next character. -/
def next? (cursor : Cursor) : Option (Char × Cursor) :=
  match cursor.ahead with
  | [] => none
  | value :: ahead => some (value, ⟨cursor.offset + 1, ahead⟩)

/-- The number of characters left. -/
def length (cursor : Cursor) : Nat := cursor.ahead.length

/-- The text left. -/
def remaining (cursor : Cursor) : String := String.ofList cursor.ahead

/-- Takes all that is left: the text taken and the cursor at its end. -/
def takeRest (cursor : Cursor) : String × Cursor :=
  (cursor.remaining, ⟨cursor.offset + cursor.length, []⟩)

@[simp] theorem peek_cons (offset : Nat) (value : Char) (ahead : List Char) :
    (Cursor.mk offset (value :: ahead)).peek = some value := rfl

@[simp] theorem advance_cons (offset : Nat) (value : Char) (ahead : List Char) :
    (Cursor.mk offset (value :: ahead)).advance = ⟨offset + 1, ahead⟩ := rfl

@[simp] theorem eat?_cons_self (offset : Nat) (value : Char) (ahead : List Char) :
    (Cursor.mk offset (value :: ahead)).eat? value = some ⟨offset + 1, ahead⟩ := by
  simp [eat?]

theorem eat?_eq_none {cursor : Cursor} {expected : Char} :
    cursor.eat? expected = none ↔ cursor.peek ≠ some expected := by
  simp [eat?]

theorem eat?_eq_some {cursor after : Cursor} {expected : Char} :
    cursor.eat? expected = some after ↔
      ∃ offset ahead, cursor = ⟨offset, expected :: ahead⟩ ∧ after = ⟨offset + 1, ahead⟩ := by
  constructor
  · intro eaten
    obtain ⟨offset, ahead⟩ := cursor
    cases ahead with
    | nil => simp [eat?, peek] at eaten
    | cons value ahead =>
        by_cases same : value = expected
        · subst same
          rw [eat?_cons_self] at eaten
          exact ⟨offset, ahead, rfl, (Option.some.inj eaten).symm⟩
        · simp [eat?, same] at eaten
  · rintro ⟨offset, ahead, rfl, rfl⟩
    exact eat?_cons_self offset expected ahead

theorem skip_of_peek_ne {cursor : Cursor} {expected : Char}
    (other : cursor.peek ≠ some expected) : cursor.skip expected = cursor := by
  rw [skip, eat?_eq_none.mpr other, Option.getD_none]

@[simp] theorem skip_cons_self (offset : Nat) (value : Char) (ahead : List Char) :
    (Cursor.mk offset (value :: ahead)).skip value = ⟨offset + 1, ahead⟩ := by
  simp [skip]

theorem peek_eq_none {cursor : Cursor} (ended : cursor.peek = none) :
    cursor.ahead = [] := by
  simpa [peek] using ended

theorem length_advance_lt {cursor : Cursor} {value : Char}
    (found : cursor.peek = some value) : cursor.advance.length < cursor.length := by
  obtain ⟨offset, ahead⟩ := cursor
  cases ahead with
  | nil => simp [peek] at found
  | cons head ahead => simp [advance, length]

theorem length_advance_le (cursor : Cursor) : cursor.advance.length ≤ cursor.length := by
  obtain ⟨offset, ahead⟩ := cursor
  cases ahead <;> simp [advance, length]

theorem length_eat?_lt {cursor after : Cursor} {expected : Char}
    (eaten : cursor.eat? expected = some after) : after.length < cursor.length := by
  unfold eat? at eaten
  split at eaten
  · next found =>
      cases eaten
      exact length_advance_lt found
  · cases eaten

theorem length_skip_le (cursor : Cursor) (expected : Char) :
    (cursor.skip expected).length ≤ cursor.length := by
  unfold skip
  cases eaten : cursor.eat? expected with
  | none => exact Nat.le_refl _
  | some after => exact Nat.le_of_lt (length_eat?_lt eaten)

end Cursor

end Residual
