import Residual.Proofs.Regex.Emptiness

/-!
# Nullability as a tree

The delta of an expression keeps its unions and concatenations and puts `∅` or `ε` in the
place of everything else. Such a tree has no word but the empty one, and it has that word
exactly if the expression is nullable, however its leaves are nested. No token is left to
derive it by, no star is left that could take a word twice, and a second delta finds nothing
to replace.
-/

namespace Residual.Regex

universe u

variable {α : Type u}

/-- All leaves of a delta are `∅` or `ε`. -/
theorem mem_preorder_delta {regex : Regex α} {label : Label α}
    (member : label ∈ regex.delta.preorder) :
    label = .empty ∨ label = .epsilon ∨ label = .union ∨ label = .concat := by
  induction regex with
  | empty | token => exact .inl (List.mem_singleton.mp member)
  | epsilon | star => exact .inr (.inl (List.mem_singleton.mp member))
  | union left right leftIH rightIH =>
      simp only [delta, preorder_union, List.mem_cons, List.mem_append] at member
      rcases member with node | inLeft | inRight
      · exact .inr (.inr (.inl node))
      · exact leftIH inLeft
      · exact rightIH inRight
  | concat left right leftIH rightIH =>
      simp only [delta, preorder_concat, List.mem_cons, List.mem_append] at member
      rcases member with node | inLeft | inRight
      · exact .inr (.inr (.inr node))
      · exact leftIH inLeft
      · exact rightIH inRight

theorem star_notMem_preorder_delta (regex : Regex α) : .star ∉ regex.delta.preorder := by
  intro member
  simpa using mem_preorder_delta member

/-- A delta is its own delta. -/
@[simp] theorem delta_delta (regex : Regex α) : regex.delta.delta = regex.delta := by
  induction regex with
  | empty | epsilon | token | star => rfl
  | union left right leftIH rightIH => simp only [delta, leftIH, rightIH]
  | concat left right leftIH rightIH => simp only [delta, leftIH, rightIH]

/-- The empty word is the only word that a delta can have. -/
theorem mem_language_delta {regex : Regex α} {word : List α} :
    word ∈ regex.delta.language ↔ word = [] ∧ regex.nullable = true := by
  rw [mem_language, matches_delta, nullable_iff]

/-- The test for emptiness needs no words to see that a delta has none: it fails at `ε` and
goes through unions and concatenations as nullability does. -/
theorem matchesNothing_delta (regex : Regex α) :
    regex.delta.matchesNothing = !regex.nullable := by
  induction regex with
  | empty | epsilon | token | star => rfl
  | union left right leftIH rightIH =>
      simp only [delta, matchesNothing, nullable, leftIH, rightIH, Bool.not_or]
  | concat left right leftIH rightIH =>
      simp only [delta, matchesNothing, nullable, leftIH, rightIH, Bool.not_and]

/-- Reading on from a delta leads nowhere. -/
theorem nullable_residual_delta [DecidableEq α] {regex : Regex α} {word : List α} :
    (regex.delta.residual word).nullable = true ↔ word = [] ∧ regex.nullable = true := by
  rw [nullable_residual_iff, matches_delta, nullable_iff]

/-- The delta of an expression is its nullability as a tree. Its only word is the empty one,
which it has if the expression is nullable; it has no tokens, no star and no other delta than
itself; no residual of it by a word of one or more tokens is nullable; and it passes the test
for emptiness exactly if the expression is not nullable. -/
theorem delta_is_nullability [DecidableEq α] (regex : Regex α) :
    (∀ word, word ∈ regex.delta.language ↔ word = [] ∧ regex.nullable = true) ∧
      (regex.delta.tokens = [] ∧ .star ∉ regex.delta.preorder) ∧
      regex.delta.delta = regex.delta ∧
      (∀ word, (regex.delta.residual word).nullable = true ↔
        word = [] ∧ regex.nullable = true) ∧
      (regex.delta.matchesNothing = true ↔ regex.nullable = false) := by
  refine ⟨?_, ⟨?_, ?_⟩, ?_, ?_, ?_⟩
  · intro word
    exact mem_language_delta
  · exact regex.tokens_delta
  · exact regex.star_notMem_preorder_delta
  · exact regex.delta_delta
  · intro word
    exact nullable_residual_delta
  · rw [matchesNothing_delta, Bool.not_eq_true']

/-- The delta of `(0*.ε)|1`: a nullable concatenation beside a leaf that is replaced by `∅`. -/
example :
    delta (.union (.concat (.star (.token 0)) .epsilon) (.token 1)) =
      .union (.concat .epsilon .epsilon) .empty := rfl

end Residual.Regex
