import Residual.Transition.Relation

/-!
# Finding a revisit

A host that keeps the configurations it has seen finds the first index of a word at which a
configuration is met again. Configurations are compared by their expressions only, so the
index depends on the residuals by the prefixes of the word and on nothing else.
-/

namespace Residual

open Std

universe u

variable {α : Type u} [DecidableEq α]

namespace Regex

/-- Whether the residual by the tokens before an index is one that was met before, by fewer
tokens of the word. -/
def Revisits (regex : Regex α) (word : List α) (index : Nat) : Prop :=
  ∃ earlier < index, regex.residual (word.take earlier) = regex.residual (word.take index)

instance (regex : Regex α) (word : List α) : DecidablePred (regex.Revisits word) :=
  fun index => inferInstanceAs (Decidable (∃ earlier < index, _))

theorem not_revisits_zero (regex : Regex α) (word : List α) : ¬ regex.Revisits word 0 := by
  intro revisit
  rcases revisit with ⟨earlier, before, _⟩
  exact absurd before (Nat.not_lt_zero earlier)

/-- Behind the first token, an index of the word revisits where one of the rest does, or
where the expression itself comes back. -/
theorem revisits_cons {regex : Regex α} {token : α} {word : List α} {index : Nat} :
    regex.Revisits (token :: word) (index + 1) ↔
      (regex.derive token).residual (word.take index) = regex ∨
        (regex.derive token).Revisits word index := by
  constructor
  · intro revisit
    rcases revisit with ⟨earlier, before, same⟩
    cases earlier with
    | zero => exact .inl same.symm
    | succ earlier => exact .inr ⟨earlier, Nat.lt_of_succ_lt_succ before, same⟩
  · intro either
    rcases either with back | ⟨earlier, before, same⟩
    · exact ⟨0, Nat.succ_pos index, back.symm⟩
    · exact ⟨earlier + 1, Nat.succ_lt_succ before, same⟩

/-- After a token, what was visited before includes the expression it was read from. -/
theorem visited_or_revisits_cons [Hashable α] {regex : Regex α}
    {visited : HashSet (Configuration α)} {token : α} {word : List α} {index : Nat} :
    (⟨regex.residual ((token :: word).take (index + 1))⟩ ∈ visited ∨
        regex.Revisits (token :: word) (index + 1)) ↔
      (⟨(regex.derive token).residual (word.take index)⟩ ∈ visited.insert ⟨regex⟩ ∨
        (regex.derive token).Revisits word index) := by
  rw [revisits_cons, HashSet.mem_insert, beq_iff_eq, Configuration.mk.injEq, or_left_comm,
    ← or_assoc, eq_comm]
  rfl

end Regex

namespace Relation

variable [Hashable α]

/-- The walk finds the first index at which the configuration was visited before the walk or
earlier in it. -/
theorem value_firstRevisit_go (relation : Relation α) (regex : Regex α)
    (visited : HashSet (Configuration α)) (index : Nat) (word : List α) :
    (firstRevisit.go relation ⟨regex⟩ visited index word).value =
      ((List.range word.length).find? fun position =>
        decide (⟨regex.residual (word.take position)⟩ ∈ visited ∨
          regex.Revisits word position)).map (index + ·) := by
  induction word generalizing regex visited index with
  | nil => rfl
  | cons token word ih =>
      rw [firstRevisit.go, List.length_cons, List.range_succ_eq_map, List.find?_cons]
      by_cases old : ⟨regex⟩ ∈ visited
      · have found : decide (⟨regex.residual ((token :: word).take 0)⟩ ∈ visited ∨
            regex.Revisits (token :: word) 0) = true :=
          decide_eq_true (.inl old)
        rw [if_pos old, found]
        rfl
      · have passed : decide (⟨regex.residual ((token :: word).take 0)⟩ ∈ visited ∨
            regex.Revisits (token :: word) 0) = false :=
          decide_eq_false fun either => either.elim old (Regex.not_revisits_zero _ _)
        have next := ih (regex.derive token) (visited.insert ⟨regex⟩) (index + 1)
        simp only [← Regex.visited_or_revisits_cons] at next
        rw [if_neg old, passed, List.find?_map, Option.map_map, Logged.value_andThen]
        refine next.trans ?_
        apply congrArg (Option.map · _)
        funext position
        exact Nat.succ_add_eq_add_succ index position

/-- The first revisit is at the first index whose residual came earlier. -/
theorem value_firstRevisit (relation : Relation α) (word : List α) :
    (relation.firstRevisit word).value =
      (List.range word.length).find? fun index =>
        decide (relation.expression.Revisits word index) := by
  have walk := value_firstRevisit_go relation relation.expression ∅ 0 word
  simp only [HashSet.not_mem_empty, false_or, Nat.zero_add, Option.map_id'] at walk
  exact walk

end Relation

end Residual
