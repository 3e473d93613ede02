import Residual.Regex.Derivative

/-!
# The language of an expression

`Matches` says which words an expression stands for, constructor by constructor and
without a word about derivatives. The equations below it take a membership apart, and the
last three tie it to the algorithms: `nullable` decides the empty word, the delta keeps
that word and no other, and the derivative by a token holds what may follow that token.
-/

namespace Residual.Regex

universe u

variable {α : Type u}

/-- The words of an expression. No word matches `∅`. -/
inductive Matches : Regex α → List α → Prop where
  | epsilon : Matches .epsilon []
  | token (value : α) : Matches (.token value) [value]
  | unionLeft {left right : Regex α} {word : List α} :
      Matches left word → Matches (.union left right) word
  | unionRight {left right : Regex α} {word : List α} :
      Matches right word → Matches (.union left right) word
  | concat {left right : Regex α} {first second : List α} :
      Matches left first → Matches right second →
        Matches (.concat left right) (first ++ second)
  | starNone {inner : Regex α} : Matches (.star inner) []
  | starMore {inner : Regex α} {first later : List α} :
      Matches inner first → Matches (.star inner) later →
        Matches (.star inner) (first ++ later)

@[simp] theorem not_matches_empty {word : List α} : ¬ Matches .empty word := nofun

@[simp] theorem matches_epsilon {word : List α} : Matches .epsilon word ↔ word = [] := by
  constructor
  · intro found
    cases found
    rfl
  · rintro rfl
    exact .epsilon

@[simp] theorem matches_token {value : α} {word : List α} :
    Matches (.token value) word ↔ word = [value] := by
  constructor
  · intro found
    cases found
    rfl
  · rintro rfl
    exact .token value

@[simp] theorem matches_union {left right : Regex α} {word : List α} :
    Matches (.union left right) word ↔ Matches left word ∨ Matches right word := by
  constructor
  · intro found
    cases found with
    | unionLeft found => exact .inl found
    | unionRight found => exact .inr found
  · rintro (found | found)
    · exact .unionLeft found
    · exact .unionRight found

theorem matches_concat {left right : Regex α} {word : List α} :
    Matches (.concat left right) word ↔
      ∃ first second, word = first ++ second ∧ Matches left first ∧ Matches right second := by
  constructor
  · intro found
    cases found with
    | concat before behind => exact ⟨_, _, rfl, before, behind⟩
  · rintro ⟨first, second, rfl, before, behind⟩
    exact .concat before behind

theorem matches_concat_nil {left right : Regex α} :
    Matches (.concat left right) [] ↔ Matches left [] ∧ Matches right [] := by
  rw [matches_concat]
  constructor
  · rintro ⟨first, second, nothing, before, behind⟩
    obtain ⟨rfl, rfl⟩ := List.append_eq_nil_iff.mp nothing.symm
    exact ⟨before, behind⟩
  · rintro ⟨before, behind⟩
    exact ⟨[], [], rfl, before, behind⟩

/-- The first token of a word belongs to the left operand, unless that takes the empty
word. -/
theorem matches_concat_cons {left right : Regex α} {token : α} {word : List α} :
    Matches (.concat left right) (token :: word) ↔
      (∃ first second, word = first ++ second ∧ Matches left (token :: first) ∧
        Matches right second) ∨
      (Matches left [] ∧ Matches right (token :: word)) := by
  rw [matches_concat]
  constructor
  · rintro ⟨first, second, equal, before, behind⟩
    cases first with
    | nil =>
        subst equal
        exact .inr ⟨before, behind⟩
    | cons head first =>
        obtain ⟨rfl, rfl⟩ := List.cons.inj equal
        exact .inl ⟨first, second, rfl, before, behind⟩
  · rintro (⟨first, second, rfl, before, behind⟩ | ⟨before, behind⟩)
    · exact ⟨token :: first, second, rfl, before, behind⟩
    · exact ⟨[], token :: word, rfl, before, behind⟩

/-- A word that is not empty has a first factor that is not empty. -/
theorem matches_star_cons {inner : Regex α} {token : α} {word : List α} :
    Matches (.star inner) (token :: word) ↔
      ∃ first later, word = first ++ later ∧ Matches inner (token :: first) ∧
        Matches (.star inner) later := by
  constructor
  · intro found
    generalize whole : Regex.star inner = regex at found
    generalize text : token :: word = full at found
    induction found with
    | starNone => cases text
    | @starMore _ first later factor rest _ shorter =>
        cases whole
        cases first with
        | nil => exact shorter rfl text
        | cons head first =>
            obtain ⟨rfl, rfl⟩ := List.cons.inj text
            exact ⟨first, later, rfl, factor, rest⟩
    | epsilon | token | unionLeft | unionRight | concat => cases whole
  · rintro ⟨first, later, rfl, factor, rest⟩
    exact .starMore factor rest

/-- An expression is nullable exactly when the empty word matches. -/
theorem nullable_iff {regex : Regex α} : regex.nullable = true ↔ Matches regex [] := by
  induction regex with
  | empty => simp [nullable]
  | epsilon => simp [nullable]
  | token => simp [nullable]
  | union left right leftIff rightIff => simp [nullable, leftIff, rightIff]
  | concat left right leftIff rightIff =>
      simp [nullable, matches_concat_nil, leftIff, rightIff]
  | star => simp [nullable, Matches.starNone]

/-- The delta has the empty word if the expression has it, and no other word. -/
theorem matches_delta {regex : Regex α} {word : List α} :
    Matches regex.delta word ↔ word = [] ∧ Matches regex [] := by
  induction regex generalizing word with
  | empty => simp [delta]
  | epsilon => simp [delta]
  | token => simp [delta]
  | union left right leftIff rightIff =>
      simp only [delta, matches_union, leftIff, rightIff, and_or_left]
  | concat left right leftIff rightIff =>
      simp only [delta, matches_concat, leftIff, rightIff]
      constructor
      · rintro ⟨_, _, rfl, ⟨rfl, before⟩, rfl, behind⟩
        exact ⟨rfl, [], [], rfl, before, behind⟩
      · rintro ⟨rfl, _, _, nothing, before, behind⟩
        obtain ⟨rfl, rfl⟩ := List.append_eq_nil_iff.mp nothing.symm
        exact ⟨[], [], rfl, ⟨rfl, before⟩, rfl, behind⟩
  | star => simp [delta, Matches.starNone]

/-- A word matches the derivative by a token exactly when it matches behind that token. -/
theorem matches_derive [DecidableEq α] {regex : Regex α} {token : α} {word : List α} :
    Matches (regex.derive token) word ↔ Matches regex (token :: word) := by
  induction regex generalizing word with
  | empty => simp [derive]
  | epsilon => simp [derive]
  | token value =>
      by_cases same : value = token
      · simp [derive, same]
      · simp [derive, same, Ne.symm same]
  | union left right leftIff rightIff => simp [derive, leftIff, rightIff]
  | concat left right leftIff rightIff =>
      rw [derive, matches_union, matches_concat, matches_concat, matches_concat_cons]
      simp only [leftIff, rightIff, matches_delta]
      constructor
      · rintro (found | ⟨_, second, rfl, ⟨rfl, before⟩, behind⟩)
        · exact .inl found
        · exact .inr ⟨before, behind⟩
      · rintro (found | ⟨before, behind⟩)
        · exact .inl found
        · exact .inr ⟨[], word, rfl, ⟨rfl, before⟩, behind⟩
  | star inner innerIff =>
      rw [derive, matches_concat, matches_star_cons]
      simp only [innerIff]

end Residual.Regex
