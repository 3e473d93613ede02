import Mathlib.Data.List.Chain
import Residual.Text.Quoted

/-!
# Every character of a quoted text shows

The table of hidden characters is searched from its beginning and left at the first range behind
the code point, which is right because its ranges ascend. What a quoted text writes in the place
of a hidden character is made of characters that are not in the table.
-/

namespace Residual

namespace Hidden

/-- In ascending ranges the search that ends early finds what any search would. -/
theorem covers_iff {ranges : List (Nat × Nat)}
    (ascending : (ranges.map Prod.fst).Pairwise (· ≤ ·)) {code : Nat} :
    covers ranges code = true ↔ ∃ range ∈ ranges, range.1 ≤ code ∧ code ≤ range.2 := by
  induction ranges with
  | nil => simp [covers]
  | cons range later ih =>
      obtain ⟨first, others⟩ := List.pairwise_cons.mp ascending
      rw [covers]
      split
      next before =>
        constructor
        · exact nofun
        · rintro ⟨other, member, begins, -⟩
          rcases List.mem_cons.mp member with rfl | further
          · exact absurd begins (Nat.not_le.mpr before)
          · have behind := first other.1 (List.mem_map_of_mem further)
            exact absurd (Nat.le_trans behind begins) (Nat.not_le.mpr before)
      next begun =>
        simp [ih others, Nat.not_lt.mp begun]

theorem ranges_ascending : (ranges.map Prod.fst).Pairwise (· ≤ ·) :=
  List.isChain_iff_pairwise.mp (by decide +kernel)

end Hidden

/-- A character is hidden if one of the ranges has its code point. -/
theorem isHidden_iff {value : Char} :
    isHidden value = true ↔
      ∃ range ∈ Hidden.ranges, range.1 ≤ value.toNat ∧ value.toNat ≤ range.2 :=
  Hidden.covers_iff Hidden.ranges_ascending

/-- Fillers, joiners and accents are hidden, and so are blanks other than the space. -/
example : ['\u115f', '\u1160', '\u200d', '\u0301', '\u00a0', '\u3000'].all isHidden = true := by
  decide +kernel

namespace Quoted

theorem not_isHidden_digitChar : ∀ digit < 16, isHidden (Nat.digitChar digit) = false := by
  decide +kernel

/-- The digits of a code point show. -/
theorem not_isHidden_of_mem_toDigits {code : Nat} {value : Char}
    (member : value ∈ Nat.toDigits 16 code) : isHidden value = false := by
  induction code using Nat.strongRecOn with
  | ind code shorter =>
      rw [Nat.toDigits_eq_if (by decide)] at member
      split at member
      next single =>
        rw [List.mem_singleton.mp member]
        exact not_isHidden_digitChar code single
      next several =>
        rcases List.mem_append.mp member with leading | last
        · exact shorter (code / 16) (by omega) leading
        · rw [List.mem_singleton.mp last]
          exact not_isHidden_digitChar _ (Nat.mod_lt code (by decide))

/-- What an escape is made of, apart from the digits of a code point, and the quote around all. -/
def marks : List Char := [quote, backslash, '0', 't', 'r', 'n', 'u', '\x7b', '\x7d']

theorem not_isHidden_of_mem_marks {mark : Char} (member : mark ∈ marks) :
    isHidden mark = false := by
  have shown : marks.all (fun mark => !isHidden mark) = true := by decide +kernel
  simpa using List.all_eq_true.mp shown mark member

/-- The letter behind a backslash shows. -/
theorem not_isHidden_of_letter? {value letter : Char} (found : letter? value = some letter) :
    isHidden letter = false := by
  apply not_isHidden_of_mem_marks
  unfold letter? at found
  split at found
  next special =>
    cases found
    rcases special with rfl | rfl <;> simp [marks]
  next => split at found <;> cases found <;> simp [marks]

/-- Whatever a character is, what is written for it shows. -/
theorem not_isHidden_of_mem_character {value written : Char}
    (member : written ∈ character value) : isHidden written = false := by
  rw [character] at member
  split at member
  next letter found =>
    rcases List.mem_cons.mp member with rfl | last
    · exact not_isHidden_of_mem_marks (by simp [marks])
    · rw [List.mem_singleton.mp last]
      exact not_isHidden_of_letter? found
  next =>
    split at member
    next hidden =>
      rcases List.mem_append.mp member with front | last
      · rcases List.mem_append.mp front with opening | digit
        · have within : [backslash, 'u', '\x7b'] ⊆ marks := by simp [marks]
          exact not_isHidden_of_mem_marks (within opening)
        · exact not_isHidden_of_mem_toDigits digit
      · rw [List.mem_singleton.mp last]
        exact not_isHidden_of_mem_marks (by simp [marks])
    next shows =>
      rw [List.mem_singleton.mp member]
      exact Bool.eq_false_iff.mpr shows

end Quoted

/-- Every character of a quoted text shows, so the text stays on one line. -/
theorem not_isHidden_of_mem_quoted {text : String} {value : Char}
    (member : value ∈ (quoted text).toList) : isHidden value = false := by
  have mark : isHidden Quoted.quote = false :=
    Quoted.not_isHidden_of_mem_marks (by simp [Quoted.marks])
  rw [quoted, String.toList_ofList] at member
  rcases List.mem_cons.mp member with rfl | inside
  · exact mark
  · rcases List.mem_append.mp inside with written | last
    · obtain ⟨character, -, written⟩ := List.mem_flatMap.mp written
      exact Quoted.not_isHidden_of_mem_character written
    · rw [List.mem_singleton.mp last]
      exact mark

/-- A quote, a tab and an accent are written with a backslash, and a letter is not. -/
example : quoted "\"a\t\u0301ε" = "\"\\\"a\\t\\u\x7b301\x7dε\"" := by decide +kernel

end Residual
