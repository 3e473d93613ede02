import Mathlib.Data.List.TakeDrop
import Mathlib.Data.List.TakeWhile
import Residual.Files.Model

/-!
# Names with an extension

The name of a file is cut at its last dot, and it is not cut if nothing stands in front of that
dot. So the extension decides which files hold models of the language: those with a name, a dot and
the one extension behind it.
-/

namespace Residual

namespace Path

/-- The search for a dot stops at the first one. -/
theorem span_dot_eq_iff {text front behind : List Char} {dot : Char} :
    text.span (· ≠ '.') = (front, dot :: behind) ↔
      text = front ++ dot :: behind ∧ dot = '.' ∧ '.' ∉ front := by
  rw [List.span_eq_takeWhile_dropWhile, Prod.mk.injEq]
  constructor
  · rintro ⟨taken, rest⟩
    have stops := List.head?_dropWhile_not (fun value => decide (value ≠ '.')) text
    rw [rest] at stops
    refine ⟨?_, by simpa using stops, ?_⟩
    · rw [← taken, ← rest, List.takeWhile_append_dropWhile]
    · rw [← taken]
      intro member
      simpa using List.mem_takeWhile_imp member
  · rintro ⟨rfl, rfl, undotted⟩
    have plain : ∀ value ∈ front, decide (value ≠ '.') = true := by
      intro value member
      rw [decide_eq_true_iff]
      rintro rfl
      exact undotted member
    rw [List.takeWhile_append_of_pos plain, List.dropWhile_append_of_pos plain]
    simp

/-- A name is cut where a dot follows something and no other dot follows it. -/
theorem cutAtDot_eq_some_iff {name stem extension : List Char} :
    cutAtDot name = (stem, some extension) ↔
      name = stem ++ '.' :: extension ∧ stem ≠ [] ∧ '.' ∉ extension := by
  constructor
  · intro found
    unfold cutAtDot at found
    split at found
    next last dot first before split =>
      obtain ⟨backwards, rfl, undotted⟩ := span_dot_eq_iff.mp split
      simp only [Prod.mk.injEq, Option.some.injEq] at found
      obtain ⟨rfl, rfl⟩ := found
      refine ⟨?_, by simp, by simpa using undotted⟩
      rw [← name.reverse_reverse, backwards]
      simp
    next => cases found
  · rintro ⟨rfl, named, undotted⟩
    obtain ⟨first, before, backwards⟩ :=
      List.exists_cons_of_ne_nil (List.reverse_ne_nil_iff.mpr named)
    have split : (stem ++ '.' :: extension).reverse.span (· ≠ '.') =
        (extension.reverse, '.' :: first :: before) :=
      span_dot_eq_iff.mpr ⟨by simp [← backwards], rfl, by simpa using undotted⟩
    rw [cutAtDot, split]
    simp [← backwards]

/-- A path has an extension if its file is named with something, a dot and the extension, in which
there is no further dot. -/
theorem extension_eq_some_iff {path : Path} {extension : String} :
    path.extension = some extension ↔
      ∃ stem : String, stem ≠ "" ∧ path.fileName = some (stem ++ "." ++ extension) ∧
        '.' ∉ extension.toList := by
  constructor
  · intro found
    obtain ⟨name, named, found⟩ := Option.bind_eq_some_iff.mp found
    obtain ⟨letters, behind, rfl⟩ := Option.map_eq_some_iff.mp found
    have cut : cutAtDot name.toList = ((cutAtDot name.toList).1, some letters) :=
      Prod.ext rfl behind
    obtain ⟨whole, present, undotted⟩ := cutAtDot_eq_some_iff.mp cut
    refine ⟨String.ofList (cutAtDot name.toList).1, ?_, ?_, ?_⟩
    · simpa using present
    · rw [named, Option.some_inj]
      apply String.ext
      simpa using whole
    · simpa using undotted
  · rintro ⟨stem, present, named, undotted⟩
    have cut : cutAtDot (stem ++ "." ++ extension).toList =
        (stem.toList, some extension.toList) :=
      cutAtDot_eq_some_iff.mpr ⟨by simp, by simpa using present, undotted⟩
    rw [Path.extension, named, Option.bind_some, cut, Option.map_some, String.ofList_toList]

example : (Path.mk ".c").extension = none ∧ (Path.mk "..c").extension = some "c" ∧
    (Path.mk "a.b.").extension = some "" := by
  cbv

end Path

/-- The files that hold models are those that are named with something in front of the extension of
the language. -/
theorem Model.handles_iff {path : Path} :
    handles path = true ↔
      ∃ stem : String, stem ≠ "" ∧ path.fileName = some (stem ++ ".regexp") := by
  have known : handles path = true ↔ path.extension = some "regexp" := by
    simp [handles, extensions, Option.any_eq_true]
  rw [known, Path.extension_eq_some_iff]
  have joined (stem : String) : stem ++ "." ++ "regexp" = stem ++ ".regexp" := by
    rw [String.append_assoc]
    rfl
  simp [joined]

end Residual
