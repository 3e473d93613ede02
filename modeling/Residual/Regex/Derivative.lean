import Residual.Regex.Basic

/-!
# Derivatives

The derivative of an expression by a token denotes what may follow that token. It is the
literal right-hand side of the derivative equations and is never simplified, so an
expression grows with every token it is derived by. The equation for a concatenation
needs to know whether the left operand has the empty word; that knowledge enters as a
tree of its own, the delta, and not as a single leaf.
-/

namespace Residual.Regex

universe u

variable {α : Type u}

/-- Whether the empty word belongs to the expression. -/
def nullable : Regex α → Bool
  | .empty | .token _ => false
  | .epsilon | .star _ => true
  | .union left right => left.nullable || right.nullable
  | .concat left right => left.nullable && right.nullable

/-- Nullability as a tree: a leaf becomes `∅` or `ε`, a star becomes `ε`, and unions and
concatenations keep their place. -/
def delta : Regex α → Regex α
  | .empty | .token _ => .empty
  | .epsilon | .star _ => .epsilon
  | .union left right => .union left.delta right.delta
  | .concat left right => .concat left.delta right.delta

/-- What may follow `token`. A word that begins in the left operand of a concatenation
either continues there or, if that operand has the empty word, begins in the right one. -/
def derive [DecidableEq α] (token : α) : Regex α → Regex α
  | .empty | .epsilon => .empty
  | .token value => if value = token then .epsilon else .empty
  | .union left right => .union (left.derive token) (right.derive token)
  | .concat left right =>
      .union (.concat (left.derive token) right) (.concat left.delta (right.derive token))
  | .star inner => .concat (inner.derive token) (.star inner)

/-- What may follow a word: the derivative by each of its tokens in turn. -/
def residual [DecidableEq α] (regex : Regex α) (word : List α) : Regex α :=
  word.foldl (fun current token => current.derive token) regex

@[simp] theorem residual_nil [DecidableEq α] (regex : Regex α) :
    regex.residual [] = regex := rfl

@[simp] theorem residual_cons [DecidableEq α] (regex : Regex α) (token : α)
    (word : List α) :
    regex.residual (token :: word) = (regex.derive token).residual word := rfl

theorem residual_append [DecidableEq α] (regex : Regex α) (first second : List α) :
    regex.residual (first ++ second) = (regex.residual first).residual second :=
  List.foldl_append

end Residual.Regex
