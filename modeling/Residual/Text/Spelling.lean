/-!
# Spelling of tokens

Expressions, labels and graphs are written with the spelling of their tokens inside. A
character spells itself, a number spells its decimal digits behind an optional minus
sign, and a text spells itself without quotes.
-/

namespace Residual

universe u

/-- How a token is written inside a larger text. -/
class Spelled (α : Type u) where
  /-- The characters that stand for the token. -/
  spelling : α → List Char

export Spelled (spelling)

instance : Spelled Char := ⟨fun value => [value]⟩

/-- The decimal digits of a natural number, without leading zeros. -/
def digits (value : Nat) : List Char := Nat.toDigits 10 value

/-- The decimal digits of a natural number as a text. -/
def decimal (value : Nat) : String := String.ofList (digits value)

instance : Spelled Nat := ⟨digits⟩

instance : Spelled Int where
  spelling
    | .ofNat value => digits value
    | .negSucc value => '-' :: digits (value + 1)

instance : Spelled String := ⟨String.toList⟩

@[simp] theorem spelling_char (value : Char) : spelling value = [value] := rfl

@[simp] theorem spelling_nat (value : Nat) : spelling value = digits value := rfl

@[simp] theorem spelling_string (value : String) : spelling value = value.toList := rfl

end Residual
