import Residual.Logged

/-!
# Transition systems

A host that runs a system needs to know where it starts, which actions an input enables
in a configuration, and what an action leads to. It keeps track of where it has been
itself. `run` is such a host: it follows the first choice everywhere and reports the
outputs it saw.
-/

namespace Residual

universe u v w x

/-- The result of an action: what the step reports, and the configuration it reached. -/
structure Outcome (Output : Type u) (State : Type v) where
  output : Output
  target : State
  deriving DecidableEq, Repr

/-- A system that is driven by inputs. -/
structure TransitionSystem (State : Type u) (Action : Type v) (Input : Type w)
    (Output : Type x) where
  /-- The configurations in which a run may begin. -/
  initial : List State
  /-- The actions that can be taken when `Input` comes next. -/
  actions : Input → State → List Action
  /-- All possible results of an action. -/
  step : Action → Input → State → Logged (List (Outcome Output State))

namespace TransitionSystem

variable {State : Type u} {Action : Type v} {Input : Type w} {Output : Type x}

/-- Reads the inputs in turn from a configuration, always by the first action and to its
first outcome, and lists the outputs. It ends early where there is nothing to choose. -/
def runFrom (system : TransitionSystem State Action Input Output) (current : State) :
    List Input → Logged (List Output)
  | [] => .silent []
  | input :: inputs =>
      match system.actions input current with
      | [] => .silent []
      | action :: _ =>
          (system.step action input current).andThen fun
            | [] => .silent []
            | outcome :: _ =>
                (system.runFrom outcome.target inputs).map fun outputs =>
                  outcome.output :: outputs

/-- Reads the inputs from the first initial configuration. -/
def run (system : TransitionSystem State Action Input Output) (inputs : List Input) :
    Logged (List Output) :=
  match system.initial with
  | [] => .silent []
  | start :: _ => system.runFrom start inputs

end TransitionSystem

end Residual
