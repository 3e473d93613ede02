import Residual.Regex.Alphabet
import Residual.Regex.Derivative

/-!
# Shapes

Which token is read decides whether a leaf becomes `ε` or `∅`, and nothing else: where
derivatives put unions, concatenations and stars depends on the expression alone. The shape
of an expression forgets that difference between leaves, and then residuals by words of
equal length cannot be told apart. In particular they have the same number of nodes and the
same tokens.
-/

namespace Residual.Regex

universe u

variable {α : Type u}

/-- The tree with `∅` for every `ε`. Expressions have the same shape if they are equal up to
an exchange of these leaves. -/
def shape : Regex α → Regex α
  | .empty | .epsilon => .empty
  | .token value => .token value
  | .union left right => .union left.shape right.shape
  | .concat left right => .concat left.shape right.shape
  | .star inner => .star inner.shape

@[simp] theorem size_shape (regex : Regex α) : regex.shape.size = regex.size := by
  induction regex with
  | empty | epsilon | token => rfl
  | union left right leftIH rightIH | concat left right leftIH rightIH =>
      simp only [shape, size, leftIH, rightIH]
  | star inner innerIH => simp only [shape, size, innerIH]

/-- The shape of a delta depends on the shape only. -/
theorem shape_delta_shape (regex : Regex α) : regex.shape.delta.shape = regex.delta.shape := by
  induction regex with
  | empty | epsilon | token | star => rfl
  | union left right leftIH rightIH | concat left right leftIH rightIH =>
      simp only [shape, delta, leftIH, rightIH]

@[simp] theorem shape_shape (regex : Regex α) : regex.shape.shape = regex.shape := by
  induction regex with
  | empty | epsilon | token => rfl
  | union left right leftIH rightIH | concat left right leftIH rightIH =>
      simp only [shape, leftIH, rightIH]
  | star inner innerIH => simp only [shape, innerIH]

theorem size_delta_shape (regex : Regex α) : regex.shape.delta.size = regex.delta.size := by
  rw [← size_shape, shape_delta_shape, size_shape]

@[simp] theorem tokens_shape (regex : Regex α) : regex.shape.tokens = regex.tokens := by
  induction regex with
  | empty | epsilon | token => rfl
  | union left right leftIH rightIH | concat left right leftIH rightIH =>
      simp only [shape, tokens, leftIH, rightIH]
  | star inner innerIH => simp only [shape, tokens, innerIH]

/-- A leaf without a token. -/
def Blank (regex : Regex α) : Prop := regex = .empty ∨ regex = .epsilon

/-- At every place there is the same constructor, and the same token at every leaf that has one,
except that `ε` and `∅` may stand for each other. -/
inductive Resembles : Regex α → Regex α → Prop where
  | blank {left right : Regex α} : left.Blank → right.Blank → Resembles left right
  | token (value : α) : Resembles (.token value) (.token value)
  | union {left right left' right' : Regex α} :
      Resembles left left' → Resembles right right' →
        Resembles (.union left right) (.union left' right')
  | concat {left right left' right' : Regex α} :
      Resembles left left' → Resembles right right' →
        Resembles (.concat left right) (.concat left' right')
  | star {inner inner' : Regex α} :
      Resembles inner inner' → Resembles (.star inner) (.star inner')

theorem Blank.shape_eq {regex : Regex α} (blank : regex.Blank) : regex.shape = .empty := by
  cases blank with
  | inl empty => rw [empty, shape]
  | inr epsilon => rw [epsilon, shape]

theorem Resembles.shape_eq {left right : Regex α} (resembles : Resembles left right) :
    left.shape = right.shape := by
  induction resembles with
  | blank first second => rw [first.shape_eq, second.shape_eq]
  | token => rfl
  | union _ _ leftIH rightIH | concat _ _ leftIH rightIH => rw [shape, shape, leftIH, rightIH]
  | star _ innerIH => rw [shape, shape, innerIH]

theorem blank_of_shape_eq {regex : Regex α} (same : regex.shape = .empty) : regex.Blank := by
  cases regex with
  | empty => exact .inl rfl
  | epsilon => exact .inr rfl
  | token | union | concat | star => cases same

/-- Expressions of the same shape resemble each other. -/
theorem resembles_of_shape_eq {left right : Regex α} (same : left.shape = right.shape) :
    Resembles left right := by
  induction left generalizing right with
  | empty => exact .blank (.inl rfl) (blank_of_shape_eq same.symm)
  | epsilon => exact .blank (.inr rfl) (blank_of_shape_eq same.symm)
  | token value =>
      cases right with
      | token other =>
          cases same
          exact .token value
      | empty | epsilon | union | concat | star => cases same
  | union first second firstIH secondIH =>
      cases right with
      | union first' second' =>
          simp only [shape, union.injEq] at same
          exact .union (firstIH same.1) (secondIH same.2)
      | empty | epsilon | token | concat | star => cases same
  | concat first second firstIH secondIH =>
      cases right with
      | concat first' second' =>
          simp only [shape, concat.injEq] at same
          exact .concat (firstIH same.1) (secondIH same.2)
      | empty | epsilon | token | union | star => cases same
  | star inner innerIH =>
      cases right with
      | star inner' =>
          simp only [shape, star.injEq] at same
          exact .star (innerIH same)
      | empty | epsilon | token | union | concat => cases same

/-- Expressions that resemble each other have the same tokens at their leaves. -/
theorem Resembles.tokens_eq {left right : Regex α} (resembles : Resembles left right) :
    left.tokens = right.tokens := by
  rw [← tokens_shape, resembles.shape_eq, tokens_shape]

theorem Resembles.size_eq {left right : Regex α} (resembles : Resembles left right) :
    left.size = right.size := by
  rw [← size_shape, resembles.shape_eq, size_shape]

theorem Resembles.size_delta_eq {left right : Regex α} (resembles : Resembles left right) :
    left.delta.size = right.delta.size := by
  rw [← size_delta_shape, resembles.shape_eq, size_delta_shape]

variable [DecidableEq α]

/-- A leaf is derived to a leaf without tokens. -/
theorem shape_derive_token (value token : α) :
    ((Regex.token value).derive token).shape = .empty := by
  rw [derive]
  split <;> rfl

/-- The shape of a derivative depends on the shape only. -/
theorem shape_derive_shape (regex : Regex α) (token : α) :
    (regex.shape.derive token).shape = (regex.derive token).shape := by
  induction regex with
  | empty | epsilon | token => rfl
  | union left right leftIH rightIH => simp only [shape, derive, leftIH, rightIH]
  | concat left right leftIH rightIH =>
      simp only [shape, derive, leftIH, rightIH, shape_shape, shape_delta_shape]
  | star inner innerIH => simp only [shape, derive, innerIH, shape_shape]

/-- The shape of a derivative does not depend on the token. -/
theorem shape_derive_eq (regex : Regex α) (first second : α) :
    (regex.derive first).shape = (regex.derive second).shape := by
  induction regex with
  | empty | epsilon => rfl
  | token value => rw [shape_derive_token, shape_derive_token]
  | union left right leftIH rightIH => simp only [shape, derive, leftIH, rightIH]
  | concat left right leftIH rightIH => simp only [shape, derive, leftIH, rightIH]
  | star inner innerIH => simp only [shape, derive, innerIH]

/-- The shape of a residual depends on the shape only. -/
theorem shape_residual_congr {left right : Regex α} (same : left.shape = right.shape)
    (word : List α) : (left.residual word).shape = (right.residual word).shape := by
  induction word generalizing left right with
  | nil => exact same
  | cons token word ih =>
      rw [residual_cons, residual_cons]
      apply ih
      calc (left.derive token).shape
        _ = (left.shape.derive token).shape := (shape_derive_shape left token).symm
        _ = (right.shape.derive token).shape := by rw [same]
        _ = (right.derive token).shape := shape_derive_shape right token

/-- Residuals by words of equal length have the same shape. -/
theorem shape_residual_eq {first second : List α} (regex : Regex α)
    (length : first.length = second.length) :
    (regex.residual first).shape = (regex.residual second).shape := by
  induction first generalizing regex second with
  | nil => rw [List.eq_nil_of_length_eq_zero length.symm]
  | cons token first ih =>
      cases second with
      | nil => cases length
      | cons other second =>
          rw [residual_cons, residual_cons, ih (regex.derive token) (Nat.succ.inj length)]
          exact shape_residual_congr (shape_derive_eq regex token other) second

/-- Residuals by words of equal length resemble each other. -/
theorem resembles_residual {first second : List α} (regex : Regex α)
    (length : first.length = second.length) :
    Resembles (regex.residual first) (regex.residual second) :=
  resembles_of_shape_eq (shape_residual_eq regex length)

theorem size_residual_eq {first second : List α} (regex : Regex α)
    (length : first.length = second.length) :
    (regex.residual first).size = (regex.residual second).size :=
  (resembles_residual regex length).size_eq

end Residual.Regex
