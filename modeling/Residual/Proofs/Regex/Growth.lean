import Residual.Proofs.Regex.Shape

/-!
# How expressions grow

An expression is flat if it has no concatenation and no star. Deriving any other one makes
it larger, and the derivative is not flat either, so reading on never leads back: residuals
by words of different lengths have different sizes. A flat expression keeps its tree, and
after two tokens every leaf of it is `∅`.
-/

namespace Residual.Regex

universe u

variable {α : Type u}

/-- Whether there is no concatenation and no star in the tree. -/
def Flat (regex : Regex α) : Prop :=
  .concat ∉ regex.preorder ∧ .star ∉ regex.preorder

instance [DecidableEq α] (regex : Regex α) : Decidable regex.Flat :=
  inferInstanceAs (Decidable (_ ∧ _))

theorem flat_union {left right : Regex α} :
    (left.union right).Flat ↔ left.Flat ∧ right.Flat := by
  simp only [Flat, preorder_union, List.mem_cons, List.mem_append, reduceCtorEq, false_or,
    not_or]
  rw [and_and_and_comm]

theorem not_flat_concat (left right : Regex α) : ¬ (left.concat right).Flat := by
  intro flat
  apply flat.1
  rw [preorder_concat]
  exact List.mem_cons_self

theorem not_flat_star (inner : Regex α) : ¬ inner.star.Flat := by
  intro flat
  apply flat.2
  rw [preorder_star]
  exact List.mem_cons_self

/-- The same tree with `∅` at every leaf. -/
def hollow : Regex α → Regex α
  | .empty | .epsilon | .token _ => .empty
  | .union left right => .union left.hollow right.hollow
  | .concat left right => .concat left.hollow right.hollow
  | .star inner => .star inner.hollow

variable [DecidableEq α] {regex : Regex α}

theorem not_flat_union {left right : Regex α} :
    ¬ (left.union right).Flat ↔ ¬ left.Flat ∨ ¬ right.Flat := by
  rw [flat_union, Decidable.not_and_iff_not_or_not]

/-! ## Growing -/

/-- No derivative is smaller than the expression. -/
theorem size_le_size_derive (regex : Regex α) (token : α) :
    regex.size ≤ (regex.derive token).size := by
  induction regex with
  | empty | epsilon | token => exact size_pos _
  | union left right leftIH rightIH =>
      simp only [derive, size]
      omega
  | concat left right leftIH rightIH =>
      simp only [derive, size]
      omega
  | star inner innerIH =>
      simp only [derive, size]
      omega

/-- A flat leaf stays where it is, and everything else is copied beside itself. -/
theorem size_lt_size_derive (growing : ¬ regex.Flat) (token : α) :
    regex.size < (regex.derive token).size := by
  induction regex with
  | empty | epsilon | token => exact absurd ⟨by simp, by simp⟩ growing
  | union left right leftIH rightIH =>
      have leftLe := left.size_le_size_derive token
      have rightLe := right.size_le_size_derive token
      simp only [derive, size]
      rcases not_flat_union.mp growing with leftGrowing | rightGrowing
      · have more := leftIH leftGrowing
        omega
      · have more := rightIH rightGrowing
        omega
  | concat left right leftIH rightIH =>
      have leftLe := left.size_le_size_derive token
      simp only [derive, size]
      omega
  | star inner innerIH =>
      have innerPos := (inner.derive token).size_pos
      simp only [derive, size]
      omega

theorem not_flat_derive (growing : ¬ regex.Flat) (token : α) :
    ¬ (regex.derive token).Flat := by
  induction regex with
  | empty | epsilon | token => exact absurd ⟨by simp, by simp⟩ growing
  | union left right leftIH rightIH =>
      intro flat
      rw [derive, flat_union] at flat
      rcases not_flat_union.mp growing with leftGrowing | rightGrowing
      · exact leftIH leftGrowing flat.1
      · exact rightIH rightGrowing flat.2
  | concat left right =>
      intro flat
      exact not_flat_concat _ _ (flat_union.mp flat).1
  | star inner => exact not_flat_concat _ _

theorem not_flat_residual (growing : ¬ regex.Flat) (word : List α) :
    ¬ (regex.residual word).Flat := by
  induction word generalizing regex with
  | nil => exact growing
  | cons token word ih => exact ih (not_flat_derive growing token)

/-- Every token adds at least one node. -/
theorem size_add_length_le (growing : ¬ regex.Flat) (word : List α) :
    regex.size + word.length ≤ (regex.residual word).size := by
  induction word generalizing regex with
  | nil => exact Nat.le_refl _
  | cons token word ih =>
      have more := size_lt_size_derive growing token
      have rest := ih (not_flat_derive growing token)
      rw [residual_cons, List.length_cons]
      omega

/-- The residual by a longer word is larger, whatever the two words are. -/
theorem size_residual_lt (growing : ¬ regex.Flat) {first second : List α}
    (shorter : first.length < second.length) :
    (regex.residual first).size < (regex.residual second).size := by
  have length : first.length = (second.take first.length).length :=
    (List.length_take_of_le (Nat.le_of_lt shorter)).symm
  have remaining : 0 < (second.drop first.length).length := by
    rw [List.length_drop]
    exact Nat.sub_pos_of_lt shorter
  have growth := size_add_length_le
    (not_flat_residual growing (second.take first.length)) (second.drop first.length)
  rw [← residual_append, List.take_append_drop] at growth
  rw [regex.size_residual_eq length]
  omega

/-- Residuals by words of different lengths differ. -/
theorem residual_ne (growing : ¬ regex.Flat) {first second : List α}
    (different : first.length ≠ second.length) :
    regex.residual first ≠ regex.residual second := by
  intro same
  rcases Nat.lt_or_gt_of_ne different with shorter | longer
  · exact Nat.ne_of_lt (size_residual_lt growing shorter) (congrArg size same)
  · exact Nat.ne_of_gt (size_residual_lt growing longer) (congrArg size same)

/-! ## Flat expressions -/

/-- Two tokens turn every leaf of a flat expression into `∅`. -/
theorem derive_derive_of_flat (flat : regex.Flat) (first second : α) :
    (regex.derive first).derive second = regex.hollow := by
  induction regex with
  | empty | epsilon => rfl
  | token value =>
      rw [derive]
      split <;> rfl
  | union left right leftIH rightIH =>
      rw [flat_union] at flat
      simp only [derive, hollow, leftIH flat.1, rightIH flat.2]
  | concat left right => exact absurd flat (not_flat_concat left right)
  | star inner => exact absurd flat (not_flat_star inner)

theorem derive_hollow_of_flat (flat : regex.Flat) (token : α) :
    regex.hollow.derive token = regex.hollow := by
  induction regex with
  | empty | epsilon | token => rfl
  | union left right leftIH rightIH =>
      rw [flat_union] at flat
      simp only [derive, hollow, leftIH flat.1, rightIH flat.2]
  | concat left right => exact absurd flat (not_flat_concat left right)
  | star inner => exact absurd flat (not_flat_star inner)

theorem residual_hollow_of_flat (flat : regex.Flat) (word : List α) :
    regex.hollow.residual word = regex.hollow := by
  induction word with
  | nil => rfl
  | cons token word ih => rw [residual_cons, derive_hollow_of_flat flat, ih]

/-- All residuals of a flat expression by words of two tokens or more are the same. -/
theorem residual_eq_hollow (flat : regex.Flat) {word : List α} (long : 2 ≤ word.length) :
    regex.residual word = regex.hollow := by
  match word, long with
  | first :: second :: rest, _ =>
      rw [residual_cons, residual_cons, derive_derive_of_flat flat,
        residual_hollow_of_flat flat]

end Residual.Regex
