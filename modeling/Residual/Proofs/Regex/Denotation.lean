import Mathlib.Computability.Language
import Residual.Regex.Language

/-!
# Expressions as languages

`language` reads an expression in the algebra of languages: a union is a sum, a
concatenation a product, and a star the Kleene closure. It knows nothing of derivatives.
The relation `Matches` is membership in it, and with that the derivative equations say
that the residual of an expression by a word is the left quotient of its language.
-/

namespace Residual.Regex

open scoped Computability

universe u

variable {α : Type u}

/-- The words of an expression. -/
def language : Regex α → Language α
  | .empty => 0
  | .epsilon => 1
  | .token value => {[value]}
  | .union left right => left.language + right.language
  | .concat left right => left.language * right.language
  | .star inner => inner.language∗

/-- A word of a star is cut into words of its operand, some of them perhaps empty. -/
theorem matches_star_iff_flatten {inner : Regex α} {word : List α} :
    Matches (.star inner) word ↔
      ∃ factors : List (List α), word = factors.flatten ∧
        ∀ factor ∈ factors, Matches inner factor := by
  constructor
  · intro found
    generalize whole : Regex.star inner = regex at found
    induction found with
    | starNone => exact ⟨[], rfl, nofun⟩
    | @starMore _ first later factor _ _ laterFactors =>
        cases whole
        rcases laterFactors rfl with ⟨factors, equal, every⟩
        refine ⟨first :: factors, ?_, ?_⟩
        · rw [List.flatten_cons, equal]
        · intro other member
          rcases List.mem_cons.mp member with same | old
          · exact same ▸ factor
          · exact every other old
    | epsilon | token | unionLeft | unionRight | concat => cases whole
  · intro cut
    rcases cut with ⟨factors, equal, every⟩
    subst equal
    induction factors with
    | nil => exact .starNone
    | cons first factors ih =>
        have factor := every first List.mem_cons_self
        have later := ih fun other member => every other (List.mem_cons_of_mem first member)
        exact .starMore factor later

/-- Matching is membership in the language. -/
theorem mem_language {regex : Regex α} {word : List α} :
    word ∈ regex.language ↔ Matches regex word := by
  induction regex generalizing word with
  | empty => simp [language, Language.notMem_zero]
  | epsilon => simp [language, Language.mem_one]
  | token value =>
      rw [matches_token]
      exact Iff.rfl
  | union left right leftIff rightIff =>
      simp only [language, Language.mem_add, matches_union, leftIff, rightIff]
  | concat left right leftIff rightIff =>
      simp only [language, Language.mem_mul, matches_concat, leftIff, rightIff]
      constructor
      · intro split
        rcases split with ⟨first, before, second, behind, equal⟩
        exact ⟨first, second, equal.symm, before, behind⟩
      · intro split
        rcases split with ⟨first, second, equal, before, behind⟩
        exact ⟨first, before, second, behind, equal.symm⟩
  | star inner innerIff =>
      simp only [language, Language.mem_kstar, matches_star_iff_flatten, innerIff]

variable [DecidableEq α]

/-- What matches the residual by a word is what may follow that word. -/
theorem matches_residual {regex : Regex α} {before after : List α} :
    Matches (regex.residual before) after ↔ Matches regex (before ++ after) := by
  induction before generalizing regex with
  | nil => rfl
  | cons token before ih => rw [residual_cons, ih, matches_derive, List.cons_append]

/-- The residual by a word is nullable exactly when the expression matches the word. -/
theorem nullable_residual_iff {regex : Regex α} {word : List α} :
    (regex.residual word).nullable = true ↔ Matches regex word := by
  rw [nullable_iff, matches_residual, List.append_nil]

/-- The residual by a word has the left quotient of the language, and it is nullable
exactly when the word belongs to the language. -/
theorem mem_language_residual (regex : Regex α) (before after : List α) :
    (after ∈ (regex.residual before).language ↔ before ++ after ∈ regex.language) ∧
      ((regex.residual before).nullable = true ↔ before ∈ regex.language) := by
  constructor
  · rw [mem_language, mem_language]
    exact matches_residual
  · rw [mem_language]
    exact nullable_residual_iff

end Residual.Regex
