import Residual.Text.Cursor

/-!
# Taking characters

The way from one cursor to another is known by the characters that are taken on it. Ways
can be joined and split, and in a text they are the parts between two offsets.
-/

namespace Residual

/-- On the way from one cursor to the other exactly these characters are taken. -/
structure Cursor.Takes (start : Cursor) (taken : List Char) (after : Cursor) : Prop where
  ahead : start.ahead = taken ++ after.ahead
  offset : after.offset = start.offset + taken.length

namespace Cursor

theorem takes_nil (cursor : Cursor) : cursor.Takes [] cursor := ⟨rfl, rfl⟩

theorem takes_cons (offset : Nat) (value : Char) (ahead : List Char) :
    Takes ⟨offset, value :: ahead⟩ [value] ⟨offset + 1, ahead⟩ := ⟨rfl, rfl⟩

theorem Takes.append {start middle after : Cursor} {first second : List Char}
    (before : start.Takes first middle) (behind : middle.Takes second after) :
    start.Takes (first ++ second) after := by
  constructor
  · rw [before.ahead, behind.ahead, List.append_assoc]
  · rw [behind.offset, before.offset, List.length_append, Nat.add_assoc]

theorem Takes.split {start after : Cursor} {first second : List Char}
    (takes : start.Takes (first ++ second) after) :
    ∃ middle, start.Takes first middle ∧ middle.Takes second after := by
  refine ⟨⟨start.offset + first.length, second ++ after.ahead⟩, ⟨?_, rfl⟩, ⟨rfl, ?_⟩⟩
  · rw [takes.ahead, List.append_assoc]
  · rw [takes.offset, List.length_append, Nat.add_assoc]

theorem Takes.eq_of_nil {start after : Cursor} (takes : start.Takes [] after) : start = after := by
  rcases start with ⟨offset, ahead⟩
  rcases after with ⟨place, rest⟩
  have sameAhead : ahead = rest := takes.ahead
  have samePlace : place = offset := takes.offset
  rw [sameAhead, samePlace]

theorem Takes.eq_of_cons {start after : Cursor} {value : Char} (takes : start.Takes [value] after) :
    start = ⟨start.offset, value :: after.ahead⟩ ∧ after = ⟨start.offset + 1, after.ahead⟩ := by
  rcases start with ⟨offset, ahead⟩
  rcases after with ⟨place, rest⟩
  have next : ahead = value :: rest := takes.ahead
  have moved : place = offset + 1 := takes.offset
  rw [next, moved]
  exact ⟨rfl, rfl⟩

/-- The next character is the first one that is taken, or the one behind if none is. -/
theorem Takes.peek_eq {start after : Cursor} {taken : List Char}
    (takes : start.Takes taken after) : start.peek = taken.head?.or after.peek := by
  rw [peek, takes.ahead, List.head?_append]
  rfl

/-- A step past a character that may be missing. -/
theorem skip_cases (cursor : Cursor) (expected : Char) :
    (∃ offset ahead, cursor = ⟨offset, expected :: ahead⟩ ∧
      cursor.skip expected = ⟨offset + 1, ahead⟩) ∨
      (cursor.peek ≠ some expected ∧ cursor.skip expected = cursor) := by
  cases eaten : cursor.eat? expected with
  | none =>
      have other := eat?_eq_none.mp eaten
      exact .inr ⟨other, skip_of_peek_ne other⟩
  | some after =>
      rcases eat?_eq_some.mp eaten with ⟨offset, ahead, rfl, rfl⟩
      exact .inl ⟨offset, ahead, rfl, skip_cons_self offset expected ahead⟩

/-- A step past a character that may be missing takes no other one. -/
theorem exists_takes_skip (cursor : Cursor) (expected : Char) :
    ∃ taken, cursor.Takes taken (cursor.skip expected) ∧ ∀ value ∈ taken, value = expected := by
  rcases cursor.skip_cases expected with ⟨offset, ahead, rfl, skipped⟩ | ⟨_, kept⟩
  · rw [skipped]
    refine ⟨[expected], takes_cons offset expected ahead, ?_⟩
    intro value member
    exact List.mem_singleton.mp member
  · rw [kept]
    exact ⟨[], cursor.takes_nil, nofun⟩

/-- What is taken from a text is the part of it between the two offsets. -/
theorem Takes.eq_take {text taken : List Char} {offset : Nat} {after : Cursor}
    (takes : (startingAt text offset).Takes taken after) :
    (text.drop offset).take (after.offset - offset) = taken := by
  have ahead : text.drop offset = taken ++ after.ahead := takes.ahead
  have place : after.offset = offset + taken.length := takes.offset
  rw [ahead, place, Nat.add_sub_cancel_left, List.take_left]

theorem Takes.eq_startingAt {text taken : List Char} {offset : Nat} {after : Cursor}
    (takes : (startingAt text offset).Takes taken after) :
    after = startingAt text (offset + taken.length) := by
  have ahead : text.drop offset = taken ++ after.ahead := takes.ahead
  have place : after.offset = offset + taken.length := takes.offset
  rw [startingAt, ← List.drop_drop, ahead, List.drop_left, ← place]

/-- In one text a cursor is known by its offset. -/
theorem Takes.startingAt_offset {text taken : List Char} {offset : Nat} {after : Cursor}
    (takes : (startingAt text offset).Takes taken after) :
    startingAt text after.offset = after := by
  have place : after.offset = offset + taken.length := takes.offset
  rw [place]
  exact takes.eq_startingAt.symm

theorem Takes.offset_le {start after : Cursor} {taken : List Char}
    (takes : start.Takes taken after) : start.offset ≤ after.offset := by
  rw [takes.offset]
  exact Nat.le_add_right start.offset taken.length

theorem peek_startingAt (text : List Char) (offset : Nat) :
    (startingAt text offset).peek = text[offset]? := List.head?_drop

end Cursor

end Residual
