import Residual.Proofs.Regex.Shape
import Residual.Proofs.Regex.Tokens
import Residual.Proofs.StateSpace.Transitions

/-!
# What the length of a word reveals

Two words of equal length lead to expressions that differ only in which of their leaves are `ε`
and which `∅`. What can be told without looking at these leaves, such as a size or an alphabet,
is therefore known from the length alone, and in an explored space from the depth.
-/

namespace Residual

universe u

namespace Relation

variable {α : Type u} [DecidableEq α] [Hashable α]

/-- Residuals by words of equal length resemble each other. So they have the same size and the
same alphabet, and so have their deltas the same size. States of the same depth have expressions
of the same size. -/
theorem resemblance_by_length (relation : Relation α) (scope : Scope α) :
    (∀ first second : List α, first.length = second.length →
      let left := relation.expression.residual first
      let right := relation.expression.residual second
      left.Resembles right ∧ left.size = right.size ∧ left.alphabet = right.alphabet ∧
        left.delta.size = right.delta.size) ∧
    (∀ left ∈ (relation.explore scope).value.states,
      ∀ right ∈ (relation.explore scope).value.states, left.depth = right.depth →
        left.configuration.size = right.configuration.size) := by
  constructor
  · intro first second length left right
    have resembles : left.Resembles right := Regex.resembles_residual relation.expression length
    exact ⟨resembles, resembles.size_eq, Regex.alphabet_eq_of_tokens_eq resembles.tokens_eq,
      resembles.size_delta_eq⟩
  · intro left leftListed right rightListed depth
    rcases (relation.reaches_state scope leftListed).1 with ⟨first, _, firstLength, atLeft⟩
    rcases (relation.reaches_state scope rightListed).1 with ⟨second, _, secondLength, atRight⟩
    have length : first.length = second.length := by rw [firstLength, secondLength, depth]
    rw [atLeft, atRight]
    exact Regex.size_residual_eq relation.start.expression length

/-- Reading any digit leads from `0*` to a state at depth one, and which of two states it is
depends on the digit. -/
theorem resemblance_of_digits :
    let relation : Relation Nat := ⟨"zeros", .star (.token 0)⟩
    let space := (relation.explore ⟨1, 3, some [0, 1]⟩).value
    (relation.expression.residual [0, 1]).Resembles (relation.expression.residual [7, 0]) ∧
      ∃ left ∈ space.states, ∃ right ∈ space.states,
        left.configuration ≠ right.configuration ∧ left.depth = right.depth ∧
          left.configuration.size = right.configuration.size := by
  intro relation space
  rcases relation.resemblance_by_length ⟨1, 3, some [0, 1]⟩ with ⟨residuals, sizes⟩
  refine ⟨(residuals [0, 1] [7, 0] rfl).1, ?_⟩
  let accepted : Discovery Nat := ⟨⟨.concat .epsilon relation.expression⟩, 1⟩
  let refused : Discovery Nat := ⟨⟨.concat .empty relation.expression⟩, 1⟩
  have discoveries : space.discoveries = [⟨relation.start, 0⟩, accepted, refused] := by
    have ended : ((relation.survey ⟨1, 3, some [0, 1]⟩).found 3).length ≤ 3 := by decide +kernel
    exact (relation.discoveries_explore _ ended).trans (by decide +kernel)
  have acceptedListed : accepted ∈ space.discoveries := by simp [discoveries]
  have refusedListed : refused ∈ space.discoveries := by simp [discoveries]
  rcases List.mem_map.mp acceptedListed with ⟨left, leftListed, atLeft⟩
  rcases List.mem_map.mp refusedListed with ⟨right, rightListed, atRight⟩
  have depth : left.depth = right.depth :=
    (congrArg Discovery.depth atLeft).trans (congrArg Discovery.depth atRight).symm
  refine ⟨left, ⟨leftListed⟩, right, ⟨rightListed⟩, ?_, depth,
    sizes left ⟨leftListed⟩ right ⟨rightListed⟩ depth⟩
  intro same
  have leftAt : left.configuration = accepted.configuration := congrArg Discovery.configuration atLeft
  have rightAt : right.configuration = refused.configuration := congrArg Discovery.configuration atRight
  rw [leftAt, rightAt] at same
  exact absurd same (by decide)

end Relation

end Residual
