import Residual.Transition.Relation

/-!
# Matching token by token

A matcher walks through the relation of an expression. It keeps the acceptance that the
last derivation reported, so asking for it costs nothing. Its configuration is never
simplified and grows with the input.
-/

namespace Residual

universe u

/-- A walk through a relation: where it stands, and whether the input so far is accepted. -/
structure Matcher (α : Type u) where
  relation : Relation α
  configuration : Configuration α
  accepting : Bool
  deriving DecidableEq, Repr

/-- The answer to whether a word is accepted. The word is not always read to its end. -/
structure Verdict (α : Type u) where
  accepted : Bool
  matcher : Matcher α
  unread : List α
  deriving DecidableEq, Repr

namespace Matcher

variable {α : Type u}

/-- A matcher before the first token. -/
def new (relation : Relation α) : Matcher α :=
  ⟨relation, relation.start, relation.start.accepting⟩

/-- Whether no further input can be accepted. -/
def dead (matcher : Matcher α) : Bool := matcher.configuration.dead

variable [DecidableEq α]

/-- Reads a token. -/
def accept (matcher : Matcher α) (token : α) : Logged (Matcher α) :=
  (matcher.relation.derive token matcher.configuration).map fun outcome =>
    { matcher with configuration := outcome.target, accepting := outcome.output }

/-- Reads all tokens of a word. -/
def acceptAll (matcher : Matcher α) (word : List α) : Logged (Matcher α) :=
  Logged.follow accept matcher word

/-- Reads a word as long as it can still be accepted, and tells whether it is. -/
def accepts (matcher : Matcher α) : List α → Logged (Verdict α)
  | [] => .silent ⟨matcher.accepting, matcher, []⟩
  | token :: word =>
      (matcher.accept token).andThen fun next =>
        if next.dead then .silent ⟨false, next, word⟩ else next.accepts word

end Matcher

end Residual
