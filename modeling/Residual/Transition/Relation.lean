import Std.Data.HashSet
import Residual.Transition.Configuration
import Residual.Transition.System

/-!
# The transition relation of an expression

An expression is a deterministic system: reading a token leads from a configuration to
its derivative and nowhere else. The relation has a name, by which its events are told
apart.
-/

namespace Residual

open Std

universe u

/-- An expression as a transition system with a name. -/
structure Relation (α : Type u) where
  name : String
  expression : Regex α
  deriving DecidableEq, Repr

/-- The only action there is: to derive by the token that is read. -/
inductive Action where
  | derive
  deriving DecidableEq, Repr

/-- The name of an action. -/
def Action.name : Action → String
  | .derive => "Derive"

namespace Relation

variable {α : Type u}

/-- The configuration before the first token. -/
def start (relation : Relation α) : Configuration α := ⟨relation.expression⟩

variable [DecidableEq α]

/-- Reads a token: the derivative, and whether it accepts. -/
def derive (relation : Relation α) (token : α) (source : Configuration α) :
    Logged (Outcome Bool (Configuration α)) :=
  let target : Configuration α := ⟨source.expression.derive token⟩
  let accepted := target.accepting
  .reporting (fun _ => [.derived relation.name source.size target.size accepted])
    ⟨accepted, target⟩

@[simp] theorem target_derive (relation : Relation α) (token : α) (source : Configuration α) :
    (relation.derive token source).value.target = ⟨source.expression.derive token⟩ := rfl

@[simp] theorem output_derive (relation : Relation α) (token : α) (source : Configuration α) :
    (relation.derive token source).value.output =
      (source.expression.derive token).nullable := rfl

/-- The configuration after a word. -/
def configurationAfter (relation : Relation α) (word : List α) : Logged (Configuration α) :=
  Logged.follow (fun current token => (relation.derive token current).map (·.target))
    relation.start word

/-- The relation as a host sees it: one configuration to start from, one action for every
token, one outcome for the action. -/
def system (relation : Relation α) :
    TransitionSystem (Configuration α) Action α Bool where
  initial := [relation.start]
  actions _ _ := [.derive]
  step _ token source := (relation.derive token source).map fun outcome => [outcome]

variable [Hashable α]

/-- The index of the first token that is read in a configuration seen before, if a word
leads back to one. -/
def firstRevisit (relation : Relation α) (word : List α) : Logged (Option Nat) :=
  go relation.start ∅ 0 word
where
  /-- Goes on from a configuration with those visited on the way to it. -/
  go (current : Configuration α) (visited : HashSet (Configuration α)) (index : Nat) :
      List α → Logged (Option Nat)
    | [] => .silent none
    | token :: word =>
        if current ∈ visited then .silent (some index)
        else
          (relation.derive token current).andThen fun outcome =>
            go outcome.target (visited.insert current) (index + 1) word

end Relation

end Residual
