import Residual.Proofs.Lists.Repetition
import Residual.Regex.Alphabet
import Residual.Regex.Language

/-!
# Where tokens come from

No operation invents a token. A delta has none, a derivative has only those of the
expression it was made from, and a word that matches is spelled with them. Hence the
tokens found by the search for first occurrences, which are all tokens of the expression
in the order of their leaves, are enough to spell every word of it.

That search works off a list of pending nodes, while the alphabet is collected by descending
into the operands. What ties the two is an invariant over whatever nodes are pending and
whatever tokens have been seen: of the leaves still ahead, read from left to right, the search
keeps those that are new, each once.
-/

namespace Residual.Regex

open Std

universe u

variable {α : Type u}

/-! ## Derivation -/

@[simp] theorem tokens_delta (regex : Regex α) : regex.delta.tokens = [] := by
  induction regex with
  | empty | epsilon | token | star => rfl
  | union left right leftIH rightIH | concat left right leftIH rightIH =>
      simp only [delta, tokens, leftIH, rightIH, List.append_nil]

/-- A token is only passed on by a derivative. -/
theorem mem_tokens_of_mem_derive [DecidableEq α] {regex : Regex α} {token value : α}
    (member : value ∈ (regex.derive token).tokens) : value ∈ regex.tokens := by
  induction regex with
  | empty | epsilon => exact member
  | token leaf =>
      rw [derive] at member
      split at member
      · exact absurd member List.not_mem_nil
      · exact absurd member List.not_mem_nil
  | union left right leftIH rightIH =>
      simp only [derive, tokens, List.mem_append] at member ⊢
      exact member.imp leftIH rightIH
  | concat left right leftIH rightIH =>
      simp only [derive, tokens, tokens_delta, List.nil_append, List.mem_append] at member ⊢
      rcases member with (before | behind) | behind
      · exact .inl (leftIH before)
      · exact .inr behind
      · exact .inr (rightIH behind)
  | star inner innerIH =>
      simp only [derive, tokens, List.mem_append] at member ⊢
      rcases member with first | later
      · exact innerIH first
      · exact later

theorem mem_tokens_of_mem_residual [DecidableEq α] {regex : Regex α} {word : List α}
    {value : α} (member : value ∈ (regex.residual word).tokens) : value ∈ regex.tokens := by
  induction word generalizing regex with
  | nil => exact member
  | cons token word ih => exact mem_tokens_of_mem_derive (ih member)

/-! ## Words -/

/-- A word is spelled with the tokens of the expression it matches. -/
theorem Matches.mem_tokens {regex : Regex α} {word : List α} (found : Matches regex word)
    {value : α} (member : value ∈ word) : value ∈ regex.tokens := by
  induction found with
  | epsilon | starNone => exact absurd member List.not_mem_nil
  | token => exact member
  | unionLeft _ ih => exact List.mem_append_left _ (ih member)
  | unionRight _ ih => exact List.mem_append_right _ (ih member)
  | concat _ _ firstIH secondIH =>
      rcases List.mem_append.mp member with before | behind
      · exact List.mem_append_left _ (firstIH before)
      · exact List.mem_append_right _ (secondIH behind)
  | starMore _ _ firstIH laterIH =>
      rcases List.mem_append.mp member with first | later
      · exact firstIH first
      · exact laterIH later

/-! ## The alphabet -/

theorem collect_eq_foldl [DecidableEq α] [Hashable α] (regex : Regex α) (found : HashSet α) :
    alphabet.collect regex found =
      regex.tokens.foldl (fun known value => known.insert value) found := by
  induction regex generalizing found with
  | empty | epsilon | token => rfl
  | union left right leftIH rightIH | concat left right leftIH rightIH =>
      rw [alphabet.collect, leftIH, rightIH, tokens, List.foldl_append]
  | star inner innerIH => exact innerIH found

/-- The alphabet is made from the leaves alone. -/
theorem alphabet_eq_of_tokens_eq [DecidableEq α] [Hashable α] {left right : Regex α}
    (same : left.tokens = right.tokens) : left.alphabet = right.alphabet := by
  rw [alphabet, alphabet, collect_eq_foldl, collect_eq_foldl, same]

/-! ## First occurrences -/

/-- The tokens of a node that is no token are those of its operands. -/
theorem tokens_eq_operands {regex : Regex α} (leafless : ∀ value, regex ≠ .token value) :
    regex.tokens = regex.operands.flatMap tokens := by
  cases regex with
  | token value => exact absurd rfl (leafless value)
  | empty | epsilon => rfl
  | union left right | concat left right => simp [tokens, operands]
  | star inner => simp [tokens, operands]

section FirstOccurrences

variable [DecidableEq α] [Hashable α]

/-- A token that is new is kept, and is known from then on. -/
theorem eraseDups_unseen_cons {seen : HashSet α} {value : α} (new : value ∉ seen)
    (values : List α) :
    ((value :: values).filter fun other => decide (other ∉ seen)).eraseDups =
      value :: (values.filter fun other => decide (other ∉ seen.insert value)).eraseDups := by
  have unseen : (fun other => decide (other ∉ seen.insert value)) =
      fun other => (!other == value) && decide (other ∉ seen) := by
    funext other
    by_cases same : other = value
    · simp [same]
    · simp [same, Ne.symm same]
  have kept : decide (value ∉ seen) = true := decide_eq_true new
  rw [List.filter_cons, if_pos kept, List.eraseDups_cons, unseen, ← List.filter_filter]

/-- The walk lists what it has found, and then each token of the pending nodes that it
has not seen, where that token first occurs. -/
theorem visit_eq (pending : List (Regex α)) (seen : HashSet α) (found : Array α) :
    firstOccurrences.visit pending seen found =
      found.toList ++
        ((pending.flatMap tokens).filter fun value => decide (value ∉ seen)).eraseDups := by
  induction pending, seen, found using firstOccurrences.visit.induct with
  | case1 seen found => simp [firstOccurrences.visit]
  | case2 seen found later value old ih =>
      rw [firstOccurrences.visit, if_pos old, ih]
      simp [tokens, old]
  | case3 seen found later value new ih =>
      rw [firstOccurrences.visit, if_neg new, ih, List.flatMap_cons, tokens,
        List.singleton_append, eraseDups_unseen_cons new, Array.toList_push, List.append_assoc,
        List.singleton_append]
  | case4 seen found later node leafless ih =>
      -- The pending nodes are other ones, but their leaves are the same.
      rw [firstOccurrences.visit, ih, List.flatMap_append, List.flatMap_cons,
        tokens_eq_operands leafless]
      exact leafless

/-- The first occurrences are the leaves from left to right without repetitions. -/
theorem firstOccurrences_eq (regex : Regex α) :
    regex.firstOccurrences = regex.tokens.eraseDups := by
  have every : regex.tokens.filter (fun value => decide (value ∉ (∅ : HashSet α))) =
      regex.tokens := by
    apply List.filter_eq_self.mpr
    intro value _
    exact decide_eq_true HashSet.not_mem_empty
  rw [firstOccurrences, visit_eq, List.flatMap_singleton, every]
  rfl

theorem mem_firstOccurrences {regex : Regex α} {value : α} :
    value ∈ regex.firstOccurrences ↔ value ∈ regex.tokens := by
  rw [firstOccurrences_eq, List.mem_eraseDups]

/-- The search through pending nodes keeps of the leaves, read from left to right, the first
with each token. It lists no token twice, and it finds those that the search by descent into
the operands puts in the alphabet. -/
theorem token_searches_agree (regex : Regex α) :
    regex.firstOccurrences = regex.tokens.eraseDups ∧
    regex.firstOccurrences.Nodup ∧
    ∀ value, value ∈ regex.firstOccurrences ↔ value ∈ regex.alphabet := by
  have kept : regex.firstOccurrences = regex.tokens.eraseDups := firstOccurrences_eq regex
  refine ⟨kept, ?_, ?_⟩
  · rw [kept]
    exact nodup_eraseDups regex.tokens
  · intro value
    rw [mem_firstOccurrences, mem_alphabet]

/-- In `1.(0|1)` the token `1` comes first and is not listed again. -/
example :
    (concat (.token 1) (.union (.token 0) (.token 1)) : Regex Nat).firstOccurrences = [1, 0] := by
  rw [firstOccurrences_eq]
  rfl

end FirstOccurrences

end Residual.Regex
