import Mathlib.Data.List.Basic

/-!
# Texts in lines

A text that is written line by line can be read back if each line tells what it was written
for and where it ends, and if what stands behind the last line does not begin like one of
them. An end of a line inside a line does no harm then.
-/

namespace Residual

universe u

/-- Lines one after the other, each with its end. -/
def joined (lines : List (List Char)) : List Char := lines.flatMap fun line => line ++ ['\n']

@[simp] theorem joined_nil : joined [] = [] := rfl

@[simp] theorem joined_cons (line : List Char) (lines : List (List Char)) :
    joined (line :: lines) = line ++ '\n' :: joined lines := by
  simp [joined]

theorem joined_append (lines following : List (List Char)) :
    joined (lines ++ following) = joined lines ++ joined following :=
  List.flatMap_append

/-- Every line stands in the text, with its end. -/
theorem infix_joined {line : List Char} {lines : List (List Char)} (member : line ∈ lines) :
    line ++ ['\n'] <:+: joined lines := by
  rw [joined, List.flatMap_def]
  exact List.infix_of_mem_flatten (List.mem_map_of_mem member)

variable {β : Type u}

/-- The first of several lines, and the lines behind it, which stand one position later. -/
theorem joined_mapIdx_cons_append (line : Nat → β → List Char) (value : β) (values : List β)
    (rest : List Char) :
    joined ((value :: values).mapIdx line) ++ rest =
      line 0 value ++
        '\n' :: (joined (values.mapIdx fun number => line (number + 1)) ++ rest) := by
  simp only [List.mapIdx_cons, joined_cons, List.append_assoc, List.cons_append]

/-- Lines that depend on their position are read one after the other, from any position on. -/
theorem joined_mapIdx_append_inj (line : Nat → β → List Char) {first second : List β}
    {rest following : List Char}
    (legible : ∀ number value other ahead behind,
      line number value ++ '\n' :: ahead = line number other ++ '\n' :: behind →
        value = other ∧ ahead = behind)
    (stops : ∀ number value ahead, line number value ++ '\n' :: ahead ≠ rest)
    (stopsToo : ∀ number value ahead, line number value ++ '\n' :: ahead ≠ following)
    (same : joined (first.mapIdx line) ++ rest = joined (second.mapIdx line) ++ following) :
    first = second ∧ rest = following := by
  induction first generalizing line second with
  | nil =>
      cases second with
      | nil => exact ⟨rfl, same⟩
      | cons other second =>
          rw [joined_mapIdx_cons_append] at same
          exact absurd same.symm (stops 0 other _)
  | cons value first read =>
      cases second with
      | nil =>
          rw [joined_mapIdx_cons_append] at same
          exact absurd same (stopsToo 0 value _)
      | cons other second =>
          rw [joined_mapIdx_cons_append, joined_mapIdx_cons_append] at same
          obtain ⟨rfl, others⟩ := legible 0 value other _ _ same
          obtain ⟨rfl, rests⟩ := read (fun number => line (number + 1))
            (fun number => legible (number + 1)) (fun number => stops (number + 1))
            (fun number => stopsToo (number + 1)) others
          exact ⟨rfl, rests⟩

/-- Lines that do not depend on their position. -/
theorem joined_map_append_inj (line : β → List Char) {first second : List β}
    {rest following : List Char}
    (legible : ∀ value other ahead behind,
      line value ++ '\n' :: ahead = line other ++ '\n' :: behind →
        value = other ∧ ahead = behind)
    (stops : ∀ value ahead, line value ++ '\n' :: ahead ≠ rest)
    (stopsToo : ∀ value ahead, line value ++ '\n' :: ahead ≠ following)
    (same : joined (first.map line) ++ rest = joined (second.map line) ++ following) :
    first = second ∧ rest = following := by
  have anywhere : ∀ values : List β, values.map line = values.mapIdx fun _ => line := by
    intro values
    apply List.ext_getElem?
    simp
  rw [anywhere, anywhere] at same
  exact joined_mapIdx_append_inj (fun _ => line) (fun _ => legible) (fun _ => stops)
    (fun _ => stopsToo) same

end Residual
