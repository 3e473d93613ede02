import Residual.Text.Spelling

/-!
# Numbers inside a larger text

The digits of a number say which number it is, and they say where it ends as long as no
further digit follows. A token that is spelled in brackets can be read back in the same
way if its spelling shows which closing bracket is the one behind it.
-/

namespace Residual

universe u

theorem isDigit_of_mem_digits {value : Nat} {character : Char}
    (member : character ∈ digits value) : character.isDigit :=
  Nat.isDigit_of_mem_toDigits (by decide) (by decide) member

theorem digits_ne_nil (value : Nat) : digits value ≠ [] := Nat.toDigits_ne_nil

theorem digits_injective {left right : Nat} (same : digits left = digits right) :
    left = right := by
  have read := congrArg (fun written => Nat.ofDigitChars 10 written 0) same
  simpa only [digits, Nat.ofDigitChars_ten_toDigits] using read

/-- The first character of a number is a digit. -/
theorem digits_eq_cons (value : Nat) :
    ∃ first rest, digits value = first :: rest ∧ first.isDigit := by
  cases written : digits value with
  | nil => exact absurd written (digits_ne_nil value)
  | cons first rest =>
      exact ⟨first, rest, rfl, isDigit_of_mem_digits (written ▸ List.mem_cons_self)⟩

/-- Text that begins with a number does not begin with another character. -/
theorem digits_append_ne_cons {value : Nat} {rest following : List Char} {next : Char}
    (other : next.isDigit = false) : digits value ++ rest ≠ next :: following := by
  obtain ⟨first, more, written, digit⟩ := digits_eq_cons value
  rw [written, List.cons_append]
  intro same
  rw [List.head_eq_of_cons_eq same, other] at digit
  exact Bool.false_ne_true digit

/-- What has a property to its end is found again in front of text that does not go on with a
character of that property. -/
theorem takeWhile_append_of_stops {property : Char → Bool} {part rest : List Char}
    (all : ∀ character ∈ part, property character = true)
    (stops : ∀ next ∈ rest.head?, property next = false) :
    (part ++ rest).takeWhile property = part := by
  rw [List.takeWhile_append_of_pos all]
  cases rest with
  | nil => exact List.append_nil _
  | cons next rest =>
      have other : ¬ property next = true := by
        rw [stops next rfl]
        exact Bool.false_ne_true
      rw [List.takeWhile_cons_of_neg other, List.append_nil]

/-- Text that does not go on with a digit. -/
def StopsDigits (rest : List Char) : Prop := ∀ next ∈ rest.head?, next.isDigit = false

theorem StopsDigits.cons {next : Char} {rest : List Char} (other : next.isDigit = false) :
    StopsDigits (next :: rest) := by
  intro head member
  rw [← Option.some.inj member]
  exact other

theorem takeWhile_digits_append {value : Nat} {rest : List Char} (stops : StopsDigits rest) :
    (digits value ++ rest).takeWhile Char.isDigit = digits value :=
  takeWhile_append_of_stops (fun _ member => isDigit_of_mem_digits member) stops

/-- A number and the text behind it are both determined where no digit follows. -/
theorem digits_append_inj {left right : Nat} {leftRest rightRest : List Char}
    (leftStops : StopsDigits leftRest) (rightStops : StopsDigits rightRest)
    (same : digits left ++ leftRest = digits right ++ rightRest) :
    left = right ∧ leftRest = rightRest := by
  have written : digits left = digits right := by
    rw [← takeWhile_digits_append leftStops, same, takeWhile_digits_append rightStops]
  rw [written] at same
  exact ⟨digits_injective written, List.append_cancel_left same⟩

/-- Tokens whose spelling shows which closing bracket follows it. -/
class Delimited (α : Type u) [Spelled α] : Prop where
  spelling_append_inj {left right : α} {leftRest rightRest : List Char} :
    spelling left ++ ')' :: leftRest = spelling right ++ ')' :: rightRest →
      left = right ∧ leftRest = rightRest

/-- One character stands before the bracket, whichever it is. -/
instance : Delimited Char where
  spelling_append_inj same := by
    simpa only [spelling_char, List.singleton_append, List.cons.injEq, true_and] using same

instance : Delimited Nat where
  spelling_append_inj same := by
    obtain ⟨value, rest⟩ := digits_append_inj (.cons rfl) (.cons rfl) same
    exact ⟨value, List.tail_eq_of_cons_eq rest⟩

instance : Delimited Int where
  spelling_append_inj {left right leftRest rightRest} same := by
    cases left with
    | ofNat left =>
        cases right with
        | ofNat right =>
            exact (Delimited.spelling_append_inj (α := Nat) same).imp (congrArg Int.ofNat) id
        | negSucc right => exact absurd same (digits_append_ne_cons rfl)
    | negSucc left =>
        cases right with
        | ofNat right => exact absurd same.symm (digits_append_ne_cons rfl)
        | negSucc right =>
            obtain ⟨value, rest⟩ := Delimited.spelling_append_inj (α := Nat)
              (List.tail_eq_of_cons_eq same)
            exact ⟨congrArg Int.negSucc (Nat.succ.inj value), rest⟩

end Residual
