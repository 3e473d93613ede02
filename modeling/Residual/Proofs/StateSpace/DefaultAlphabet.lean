import Residual.Proofs.Regex.Emptiness
import Residual.Proofs.StateSpace.Layers

/-!
# What the default alphabet leaves out

An exploration that is given no alphabet derives by the tokens of the expression. Any other
token leads to a dead configuration, at whatever place of a word it stands, although the tree
behind it is as large as any. So all that is left out is configurations from which nothing is
accepted any more: a word that leads to another one is spelled with the tokens of the
expression, and so are the words that can be read on from there.
-/

namespace Residual

universe u

variable {α : Type u} [DecidableEq α]

namespace Regex

variable {regex : Regex α} {before after : List α} {token : α}

/-- Whoever goes on to accept has read tokens of the expression only. -/
theorem mem_tokens_of_mem_language_residual (accepted : after ∈ (regex.residual before).language)
    (member : token ∈ before) : token ∈ regex.tokens := by
  have found : Matches regex (before ++ after) :=
    matches_residual.mp (mem_language.mp accepted)
  exact found.mem_tokens (List.mem_append_left after member)

/-- Behind a token that does not occur in the expression nothing can be accepted. -/
theorem matchesNothing_residual_of_foreign (member : token ∈ before)
    (foreign : token ∉ regex.tokens) : (regex.residual before).matchesNothing = true := by
  apply matchesNothing_iff.mpr
  intro after found
  exact foreign (mem_tokens_of_mem_language_residual (mem_language.mpr found) member)

/-- A residual from which some word is accepted is one by tokens of the expression. -/
theorem mem_tokens_of_nullable_residual
    (accepted : ((regex.residual before).residual after).nullable = true)
    (member : token ∈ before) : token ∈ regex.tokens := by
  have found : after ∈ (regex.residual before).language :=
    mem_language.mpr (nullable_residual_iff.mp accepted)
  exact mem_tokens_of_mem_language_residual found member

end Regex

namespace Relation

variable [Hashable α]

/-- The default alphabet of an exploration has the tokens of the expression. -/
theorem mem_explorationAlphabet_default {relation : Relation α} {scope : Scope α}
    (default : scope.alphabet = none) {token : α} :
    token ∈ relation.explorationAlphabet scope ↔ token ∈ relation.expression.tokens := by
  rw [explorationAlphabet, default, Option.getD_none, Regex.mem_firstOccurrences]

/-- The default alphabet loses nothing. A configuration has no tokens that the expression
does not have. One that is reached by a word with another token is dead, and accepts under no
continuation. Hence a configuration from which some word is accepted is reached by words over
the alphabet of the expression only, and these are words over the default alphabet of an
exploration. -/
theorem default_alphabet_loses_nothing (relation : Relation α) (word : List α) :
    let reached : Configuration α := ⟨relation.expression.residual word⟩
    (∀ token ∈ reached.expression.tokens, token ∈ relation.expression.tokens) ∧
    ((∃ token ∈ word, token ∉ relation.expression.tokens) →
      reached.dead = true ∧
        ∀ later, (reached.expression.residual later).nullable = false) ∧
    ((∃ later, (reached.expression.residual later).nullable = true) →
      (∀ token ∈ word, token ∈ relation.expression.alphabet) ∧
        ∀ scope : Scope α, scope.alphabet = none →
          relation.start.Reaches (relation.explorationAlphabet scope) word.length reached) := by
  intro reached
  refine ⟨?_, ?_, ?_⟩
  · intro token member
    exact Regex.mem_tokens_of_mem_residual member
  · rintro ⟨token, member, foreign⟩
    have dead : reached.dead = true := Regex.matchesNothing_residual_of_foreign member foreign
    refine ⟨dead, ?_⟩
    intro later
    exact Regex.nullable_eq_false_of_matchesNothing (Regex.matchesNothing_residual dead later)
  · rintro ⟨later, accepted⟩
    have occurs : ∀ token ∈ word, token ∈ relation.expression.tokens :=
      fun _ member => Regex.mem_tokens_of_nullable_residual accepted member
    constructor
    · intro token member
      exact Regex.mem_alphabet.mpr (occurs token member)
    · intro scope default
      refine ⟨word, ?_, rfl, rfl⟩
      intro token member
      exact (mem_explorationAlphabet_default default).mpr (occurs token member)

/-- In `(0|1).0*` the word `107` leads to a dead end, which `10` does not. -/
theorem default_alphabet_of_digits :
    let relation : Relation Nat :=
      ⟨"digits", .concat (.union (.token 0) (.token 1)) (.star (.token 0))⟩
    (∃ token ∈ [1, 0, 7], token ∉ relation.expression.tokens) ∧
      (⟨relation.expression.residual [1, 0, 7]⟩ : Configuration Nat).dead = true ∧
      ((relation.expression.residual [1, 0]).residual [0]).nullable = true ∧
      (∀ token ∈ [1, 0], token ∈ relation.expression.alphabet) ∧
      relation.start.Reaches (relation.explorationAlphabet {}) 2
        ⟨relation.expression.residual [1, 0]⟩ := by
  intro relation
  have foreign : ∃ token ∈ [1, 0, 7], token ∉ relation.expression.tokens := by decide
  have accepted : ((relation.expression.residual [1, 0]).residual [0]).nullable = true := by
    decide
  have lost := (default_alphabet_loses_nothing relation [1, 0, 7]).2.1 foreign
  have kept := (default_alphabet_loses_nothing relation [1, 0]).2.2 ⟨[0], accepted⟩
  exact ⟨foreign, lost.1, accepted, kept.1, kept.2 {} rfl⟩

end Relation

end Residual
