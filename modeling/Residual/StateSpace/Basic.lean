import Residual.Transition.Configuration

/-!
# Explored state spaces

A state space is the part of a relation that an exploration has seen: states, numbered in
the order in which they were discovered, and the transitions between them in the order in
which they were taken.
-/

namespace Residual

universe u

/-- A configuration that was discovered. -/
structure ExploredState (α : Type u) where
  configuration : Configuration α
  /-- Whether the configuration accepts. -/
  accepting : Bool
  /-- The number of tokens read to get here. -/
  depth : Nat
  /-- Whether some token was not followed from here. -/
  truncated : Bool
  deriving DecidableEq, Repr

/-- A derivation between two states, named by their numbers. -/
structure Transition (α : Type u) where
  source : Nat
  token : α
  target : Nat
  /-- Whether the target accepts. -/
  accepted : Bool
  deriving DecidableEq, Repr

/-- The explored part of a relation. -/
structure StateSpace (α : Type u) where
  states : Array (ExploredState α)
  transitions : Array (Transition α)
  /-- The number of the state that stands before the first token. -/
  initial : Nat
  deriving DecidableEq, Repr

namespace StateSpace

variable {α : Type u}

/-- Whether a limit kept some token from being followed. -/
def truncated (space : StateSpace α) : Bool := space.states.any (·.truncated)

/-- The transitions that leave a state. -/
def successors (space : StateSpace α) (state : Nat) : List (Transition α) :=
  space.transitions.toList.filter fun transition => transition.source = state

end StateSpace

end Residual
