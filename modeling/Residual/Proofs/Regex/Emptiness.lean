import Residual.Proofs.Regex.Denotation
import Residual.Proofs.Regex.Tokens

/-!
# Expressions without words

Whether an expression has any words can be read off its tree: a concatenation has one as
soon as both operands do, whatever the words are, and a star always has the empty one.
Nothing is gained by reading on: the residuals of an expression without words have none
either, and hence are not nullable.
-/

namespace Residual.Regex

universe u

variable {α : Type u}

/-- The test finds exactly the expressions without words. -/
theorem matchesNothing_iff {regex : Regex α} :
    regex.matchesNothing = true ↔ ∀ word, ¬ Matches regex word := by
  induction regex with
  | empty => simp [matchesNothing]
  | epsilon | token => simp [matchesNothing]
  | union left right leftIff rightIff =>
      simp only [matchesNothing, Bool.and_eq_true, leftIff, rightIff, matches_union, not_or,
        forall_and]
  | concat left right leftIff rightIff =>
      simp only [matchesNothing, Bool.or_eq_true, leftIff, rightIff]
      constructor
      · intro either word found
        rcases matches_concat.mp found with ⟨first, second, _, before, behind⟩
        rcases either with nothing | nothing
        · exact nothing first before
        · exact nothing second behind
      · intro nothing
        by_cases wordless : ∀ word, ¬ Matches left word
        · exact .inl wordless
        · rcases not_forall_not.mp wordless with ⟨first, before⟩
          apply Or.inr
          intro second behind
          exact nothing (first ++ second) (.concat before behind)
  | star inner =>
      refine iff_of_false Bool.false_ne_true ?_
      intro nothing
      exact nothing [] .starNone

/-- An expression without words does not have the empty word. -/
theorem nullable_eq_false_of_matchesNothing {regex : Regex α}
    (nothing : regex.matchesNothing = true) : regex.nullable = false := by
  rw [← Bool.not_eq_true, nullable_iff]
  exact matchesNothing_iff.mp nothing []

variable [DecidableEq α]

/-- The residual by a word has no words exactly when no word of the expression begins with
that word. -/
theorem matchesNothing_residual_iff {regex : Regex α} {before : List α} :
    (regex.residual before).matchesNothing = true ↔
      ∀ after, before ++ after ∉ regex.language := by
  simp only [matchesNothing_iff, matches_residual, mem_language]

/-- Deriving does not bring words back. -/
theorem matchesNothing_derive {regex : Regex α} (nothing : regex.matchesNothing = true)
    (token : α) : (regex.derive token).matchesNothing = true := by
  rw [matchesNothing_iff] at nothing ⊢
  intro word found
  exact nothing (token :: word) (matches_derive.mp found)

/-- However far one reads on, an expression without words has none. -/
theorem matchesNothing_residual {regex : Regex α} (nothing : regex.matchesNothing = true)
    (word : List α) : (regex.residual word).matchesNothing = true := by
  induction word generalizing regex with
  | nil => exact nothing
  | cons token word ih => exact ih (matchesNothing_derive nothing token)

/-- An expression that has words has one that can be read, and all tokens of it occur in the
expression. -/
theorem exists_nullable_residual {regex : Regex α} (something : regex.matchesNothing = false) :
    ∃ word : List α, (∀ token ∈ word, token ∈ regex.tokens) ∧
      (regex.residual word).nullable = true := by
  have found : ¬ ∀ word, ¬ Matches regex word := by
    intro wordless
    rw [matchesNothing_iff.mpr wordless] at something
    cases something
  rcases not_forall_not.mp found with ⟨word, matched⟩
  refine ⟨word, ?_, nullable_residual_iff.mpr matched⟩
  intro token member
  exact matched.mem_tokens member

/-- The test for emptiness is exact: it fails for an expression exactly if some word over its
alphabet is accepted. Where it holds it goes on to hold, and nothing is accepted, whatever
tokens are read. -/
theorem emptiness_exact_and_absorbing [Hashable α] (regex : Regex α) :
    (regex.matchesNothing = true ↔ ∀ word, word ∉ regex.language) ∧
      (regex.matchesNothing = false →
        ∃ word : List α, (∀ token ∈ word, token ∈ regex.alphabet) ∧
          (regex.residual word).nullable = true) ∧
      (regex.matchesNothing = true → ∀ word : List α,
        (regex.residual word).matchesNothing = true ∧
          (regex.residual word).nullable = false) := by
  refine ⟨?_, ?_, ?_⟩
  · simp only [mem_language]
    exact matchesNothing_iff
  · intro something
    simp only [mem_alphabet]
    exact exists_nullable_residual something
  · intro nothing word
    have still := matchesNothing_residual nothing word
    exact ⟨still, nullable_eq_false_of_matchesNothing still⟩

/-- Every word of `(∅|0).∅*` is spelled with its digit, and `0*.(∅|1.∅)` has none, not even
behind digits that do not occur in it. -/
theorem emptiness_of_digits :
    let inhabited : Regex Nat := .concat (.union .empty (.token 0)) (.star .empty)
    let barren : Regex Nat :=
      .concat (.star (.token 0)) (.union .empty (.concat (.token 1) .empty))
    inhabited.matchesNothing = false ∧ barren.matchesNothing = true ∧
      (∃ word : List Nat, (∀ token ∈ word, token ∈ inhabited.alphabet) ∧
        (inhabited.residual word).nullable = true) ∧
      (barren.residual [0, 1, 7]).matchesNothing = true ∧
      (barren.residual [0, 1, 7]).nullable = false := by
  intro inhabited barren
  have something : inhabited.matchesNothing = false := by decide
  have nothing : barren.matchesNothing = true := by decide
  have accepted := (emptiness_exact_and_absorbing inhabited).2.1 something
  have absorbed := (emptiness_exact_and_absorbing barren).2.2 nothing [0, 1, 7]
  exact ⟨something, nothing, accepted, absorbed⟩

end Residual.Regex
