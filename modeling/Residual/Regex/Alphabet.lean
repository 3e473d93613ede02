import Std.Data.HashSet
import Residual.Regex.Basic

/-!
# The tokens of an expression

`tokens` lists the token leaves from left to right and `alphabet` collects them in a set.
Neither fixes the order in which an exploration should try the tokens: for that,
`firstOccurrences` lists each token once, where it first occurs, and finds them by a walk
with an explicit list of pending nodes.
-/

namespace Residual.Regex

open Std

universe u

variable {α : Type u}

/-- The token leaves, left to right and with every repetition. -/
def tokens : Regex α → List α
  | .empty | .epsilon => []
  | .token value => [value]
  | .union left right | .concat left right => left.tokens ++ right.tokens
  | .star inner => inner.tokens

/-- The set of tokens that occur. -/
def alphabet [DecidableEq α] [Hashable α] (regex : Regex α) : HashSet α :=
  collect regex ∅
where
  /-- Adds the tokens of a node to those found so far. -/
  collect : Regex α → HashSet α → HashSet α
    | .empty, found | .epsilon, found => found
    | .token value, found => found.insert value
    | .union left right, found | .concat left right, found =>
        collect right (collect left found)
    | .star inner, found => collect inner found

theorem mem_collect [DecidableEq α] [Hashable α] {regex : Regex α} {found : HashSet α}
    {value : α} : value ∈ alphabet.collect regex found ↔ value ∈ found ∨ value ∈ regex.tokens := by
  induction regex generalizing found with
  | empty | epsilon => simp [alphabet.collect, tokens]
  | token leaf =>
      simp only [alphabet.collect, tokens, HashSet.mem_insert, beq_iff_eq, List.mem_singleton]
      constructor
      · rintro (equal | old)
        · exact .inr equal.symm
        · exact .inl old
      · rintro (old | equal)
        · exact .inr old
        · exact .inl equal.symm
  | union left right leftMem rightMem | concat left right leftMem rightMem =>
      simp only [alphabet.collect, tokens, leftMem, rightMem, List.mem_append, or_assoc]
  | star inner innerMem => simp only [alphabet.collect, tokens, innerMem]

/-- The alphabet holds exactly the tokens at the leaves. -/
@[simp] theorem mem_alphabet [DecidableEq α] [Hashable α] {regex : Regex α} {value : α} :
    value ∈ regex.alphabet ↔ value ∈ regex.tokens := by
  simp [alphabet, mem_collect]

/-- Each token once, in the order of its first occurrence from left to right. -/
def firstOccurrences [DecidableEq α] [Hashable α] (regex : Regex α) : List α :=
  visit [regex] ∅ #[]
where
  /-- Takes the first pending node, keeps it if it is a token not seen before, and puts
  its operands in front of the other pending nodes. -/
  visit (pending : List (Regex α)) (seen : HashSet α) (found : Array α) : List α :=
    match pending with
    | [] => found.toList
    | node :: later =>
        match node with
        | .token value =>
            if value ∈ seen then visit later seen found
            else visit later (seen.insert value) (found.push value)
        | node => visit (node.operands ++ later) seen found
  termination_by sizes pending
  decreasing_by
    · simp [sizes, size]
    · simp [sizes, size]
    · simp [sizes, size_eq_operands node]

end Residual.Regex
