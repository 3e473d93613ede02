import Mathlib.Data.List.Induction

/-!
# Lists without their repetitions

The first occurrences in a list are found from its end: a last entry that has occurred before
leaves no trace, and one that is new stays where it is. Where entries are known by their
images, or lists have nothing in common, repetitions may be dropped before or after.
-/

namespace Residual

universe u v

variable {β : Type u} [BEq β] [LawfulBEq β]

/-- What occurs already leaves no trace behind. -/
theorem eraseDups_append_of_subset {earlier later : List β}
    (repeated : ∀ value ∈ later, value ∈ earlier) :
    (earlier ++ later).eraseDups = earlier.eraseDups := by
  rw [List.eraseDups_append, List.removeAll, List.filter_eq_nil_iff.mpr, List.eraseDups_nil,
    List.append_nil]
  intro value member
  simp [repeated value member]

/-- What has nothing in common with the list before it is kept apart. -/
theorem eraseDups_append_of_disjoint {earlier later : List β}
    (new : ∀ value ∈ later, value ∉ earlier) :
    (earlier ++ later).eraseDups = earlier.eraseDups ++ later.eraseDups := by
  rw [List.eraseDups_append, List.removeAll, List.filter_eq_self.mpr]
  intro value member
  simp [new value member]

theorem eraseDups_concat_of_mem {values : List β} {value : β} (repeated : value ∈ values) :
    (values ++ [value]).eraseDups = values.eraseDups :=
  eraseDups_append_of_subset fun _ last => List.mem_singleton.mp last ▸ repeated

theorem eraseDups_concat_of_notMem {values : List β} {value : β} (new : value ∉ values) :
    (values ++ [value]).eraseDups = values.eraseDups ++ [value] := by
  rw [eraseDups_append_of_disjoint (by simpa using new)]
  rfl

theorem nodup_eraseDups (values : List β) : values.eraseDups.Nodup := by
  induction values using List.reverseRecOn with
  | nil => exact List.nodup_nil
  | append_singleton values value nodup =>
      by_cases repeated : value ∈ values
      · rw [eraseDups_concat_of_mem repeated]
        exact nodup
      · rw [eraseDups_concat_of_notMem repeated]
        refine List.nodup_append.mpr ⟨nodup, List.pairwise_singleton _ value, ?_⟩
        intro earlier member last same equal
        rw [equal, List.mem_singleton.mp same, List.mem_eraseDups] at member
        exact repeated member

variable {γ : Type v} [BEq γ] [LawfulBEq γ]

/-- Entries that are known by their images, if they have any, repeat where these do. -/
theorem eraseDups_filterMap {image : β → Option γ}
    (known : ∀ {first second : β} {value : γ},
      image first = some value → image second = some value → first = second)
    (values : List β) :
    (values.filterMap image).eraseDups = values.eraseDups.filterMap image := by
  induction values using List.reverseRecOn with
  | nil => rfl
  | append_singleton values last ih =>
      rw [List.filterMap_append]
      by_cases repeated : last ∈ values
      · rw [eraseDups_concat_of_mem repeated, ← ih]
        apply eraseDups_append_of_subset
        intro value member
        simp only [List.mem_filterMap, List.mem_singleton] at member ⊢
        obtain ⟨entry, rfl, written⟩ := member
        exact ⟨entry, repeated, written⟩
      · rw [eraseDups_concat_of_notMem repeated, List.filterMap_append, ← ih]
        cases written : image last with
        | none => simp [written]
        | some value =>
            simp only [List.filterMap_cons_some written, List.filterMap_nil]
            apply eraseDups_concat_of_notMem
            intro member
            obtain ⟨entry, earlier, same⟩ := List.mem_filterMap.mp member
            exact repeated (known same written ▸ earlier)

/-- Lists without common entries may be freed of their repetitions one by one. -/
theorem eraseDups_flatMap_range {group : Nat → List γ}
    (disjoint : ∀ {first second : Nat} {value : γ},
      value ∈ group first → value ∈ group second → first = second) (count : Nat) :
    ((List.range count).flatMap group).eraseDups =
      (List.range count).flatMap fun number => (group number).eraseDups := by
  induction count with
  | zero => rfl
  | succ count ih =>
      rw [List.range_succ, List.flatMap_append, List.flatMap_append, List.flatMap_singleton,
        List.flatMap_singleton, eraseDups_append_of_disjoint, ih]
      intro value last earlier
      obtain ⟨number, inside, member⟩ := List.mem_flatMap.mp earlier
      have before := List.mem_range.mp inside
      rw [disjoint member last] at before
      exact Nat.lt_irrefl count before

end Residual
