import Residual.Logged
import Residual.Transition.Relation

/-!
# Atomic propositions

A host that checks a model may register atomic propositions about configurations. A
proposition speaks of the token that led to a configuration or of the one that follows,
and a configuration records neither, so every proposition is reported false everywhere.
-/

namespace Residual

universe u

/-- A statement about the tokens around a configuration. -/
inductive Proposition where
  /-- The token just read. -/
  | token (value : Char)
  /-- The token read next. -/
  | nextToken (value : Char)
  deriving DecidableEq, Repr

/-- Why propositions are not registered: a text that is none. -/
inductive PropositionError where
  | unparsable (text : String)
  deriving DecidableEq, Repr

/-- The wording of an error. -/
def PropositionError.message : PropositionError → String
  | .unparsable text => "unable to parse " ++ quoted text ++ " as an atomic proposition"

namespace Proposition

/-- The mark in front of a token that is read next. -/
def mark : Char := '\x27'

/-- The text of a proposition: its token, behind the mark if it is read next. -/
def text : Proposition → List Char
  | .token value => [value]
  | .nextToken value => [mark, value]

/-- The proposition of a text. -/
def parse (text : String) : Except PropositionError Proposition :=
  match text.toList with
  | [value] => .ok (.token value)
  | [first, value] =>
      if first = mark then .ok (.nextToken value) else .error (.unparsable text)
  | _ => .error (.unparsable text)

end Proposition

/-- The propositions registered about the configurations of an expression. -/
structure Registry (α : Type u) where
  model : Regex α
  propositions : List Proposition
  deriving DecidableEq, Repr

namespace Registry

variable {α : Type u}

/-- A registry without propositions. -/
def new (model : Regex α) : Registry α := ⟨model, []⟩

/-- Replaces the registered propositions by those of the texts and answers their indices.
If one of the texts is no proposition, nothing changes. -/
def register (registry : Registry α) (texts : List String) :
    Logged (Except PropositionError (List Nat) × Registry α) :=
  match texts.mapM Proposition.parse with
  | .error error => .silent (.error error, registry)
  | .ok propositions =>
      .reporting
        (fun _ => if propositions.isEmpty then [] else [.registered propositions.length])
        (.ok (List.range propositions.length), { registry with propositions })

/-- The value of a proposition, wherever it is asked for. -/
def evaluate : Proposition → Bool
  | .token _ | .nextToken _ => false

/-- The values of the registered propositions in a configuration. -/
def valuations (registry : Registry α) (_configuration : Configuration α) : List Bool :=
  registry.propositions.map evaluate

/-- The values of the registered propositions on a step between two configurations. -/
def stepValuations (registry : Registry α) (_source : Configuration α) (_action : Action)
    (_target : Configuration α) : List Bool :=
  registry.propositions.map evaluate

end Registry

end Residual
