import Residual.Text.Spelling
import Residual.Regex.Basic

/-!
# Spelling of expressions

An expression is written with every operator in brackets of its own, so its spelling
needs no precedence and a reader finds the operands again by counting brackets. The text
is built from its end: `spellOnto` puts an expression in front of what follows it, which
keeps the work proportional to the length of the text.
-/

namespace Residual.Regex

universe u

variable {α : Type u} [Spelled α]

/-- The spelling of an expression in front of `rest`. -/
def spellOnto : Regex α → List Char → List Char
  | .empty, rest => '∅' :: rest
  | .epsilon, rest => 'ε' :: rest
  | .token value, rest => spelling value ++ rest
  | .union left right, rest => '(' :: left.spellOnto ('|' :: right.spellOnto (')' :: rest))
  | .concat left right, rest => '(' :: left.spellOnto ('.' :: right.spellOnto (')' :: rest))
  | .star inner, rest => '(' :: inner.spellOnto (')' :: '*' :: rest)

instance : Spelled (Regex α) := ⟨fun regex => regex.spellOnto []⟩

theorem spellOnto_eq_append (regex : Regex α) (rest : List Char) :
    regex.spellOnto rest = spelling regex ++ rest := by
  suffices general : ∀ (regex : Regex α) (middle rest : List Char),
      regex.spellOnto (middle ++ rest) = regex.spellOnto middle ++ rest from
    general regex [] rest
  clear regex rest
  intro regex
  induction regex with
  | empty | epsilon => intro _ _; rfl
  | token value => intro middle rest; simp [spellOnto]
  | union left right leftAppend rightAppend | concat left right leftAppend rightAppend =>
      intro middle rest
      simp [spellOnto, ← leftAppend, ← rightAppend]
  | star inner innerAppend =>
      intro middle rest
      simp [spellOnto, ← innerAppend]

@[simp] theorem spelling_empty : spelling (.empty : Regex α) = ['∅'] := rfl

@[simp] theorem spelling_epsilon : spelling (.epsilon : Regex α) = ['ε'] := rfl

@[simp] theorem spelling_token (value : α) : spelling (Regex.token value) = spelling value := by
  simp [spelling, spellOnto]

@[simp] theorem spelling_union (left right : Regex α) :
    spelling (left.union right) =
      '(' :: (spelling left ++ '|' :: (spelling right ++ [')'])) := by
  simp only [← spellOnto_eq_append]
  rfl

@[simp] theorem spelling_concat (left right : Regex α) :
    spelling (left.concat right) =
      '(' :: (spelling left ++ '.' :: (spelling right ++ [')'])) := by
  simp only [← spellOnto_eq_append]
  rfl

@[simp] theorem spelling_star (inner : Regex α) :
    spelling inner.star = '(' :: (spelling inner ++ [')', '*']) := by
  simp only [← spellOnto_eq_append]
  rfl

end Residual.Regex
