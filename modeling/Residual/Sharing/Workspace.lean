import Residual.Sharing.Shared
import Residual.Regex.Parse
import Residual.Regex.Spelling

/-!
# Building expressions step by step

A workspace holds expressions in numbered registers. Each step builds an expression from
earlier ones and puts it into the next register; a step that fails leaves its register
empty. Using a register does not copy what is in it, so the steps decide which nodes are
shared.
-/

namespace Residual

universe u

/-- A step that builds an expression. Natural numbers name registers, except for the position of
an operand. -/
inductive Construction (α : Type u) where
  | empty
  | epsilon
  | token (value : α)
  | union (left right : Nat)
  | concat (left right : Nat)
  | star (inner : Nat)
  /-- Reads a text. -/
  | parse (text : String)
  /-- Reads the spelling of a register. -/
  | reparse (source : Nat)
  | derive (source : Nat) (token : α)
  | residual (source : Nat) (word : List α)
  | delta (source : Nat)
  | operand (source position : Nat)

/-- Why a step builds nothing. -/
inductive ConstructionError where
  | emptyRegister
  | noOperand
  | parse (error : ParseError)
  deriving DecidableEq, Repr

/-- The wording of an error. -/
def ConstructionError.message : ConstructionError → String
  | .emptyRegister => "no expression in that register"
  | .noOperand => "no such operand"
  | .parse error => error.message

/-- The registers filled so far and the first serial number still free. -/
structure Workspace (α : Type u) where
  registers : Array (Option (Shared α))
  next : Nat

namespace Workspace

variable {α : Type u}

/-- No registers and no numbers given away. -/
def start : Workspace α := ⟨#[], 0⟩

/-- The expression in a register. -/
def find (workspace : Workspace α) (register : Nat) : Except ConstructionError (Shared α) :=
  match workspace.registers[register]? with
  | some (some shared) => .ok shared
  | _ => .error .emptyRegister

/-- Leaves the next register empty. -/
def skip (workspace : Workspace α) : Workspace α :=
  { workspace with registers := workspace.registers.push none }

/-- Puts an expression into the next register and gives away the numbers below `next`. -/
def store (workspace : Workspace α) (shared : Shared α) (next : Nat) : Workspace α :=
  ⟨workspace.registers.push (some shared), next⟩

/-- What token type and texts have to do with each other: how a text is read. -/
abbrev TextReader (α : Type u) := String → Logged (Except ParseError (Regex α))

/-- Reads a text into nodes that are all new. -/
def readInto (reader : TextReader α) (text : String) (next : Nat) :
    Logged (Except ConstructionError (Shared α × Nat)) :=
  (reader text).map fun
    | .ok regex => .ok (Shared.fresh regex next)
    | .error error => .error (.parse error)

variable [DecidableEq α] [Spelled α]

/-- The expression that a step builds and the first number that is then free. -/
def construct (reader : TextReader α) (workspace : Workspace α) :
    Construction α → Logged (Except ConstructionError (Shared α × Nat))
  | .empty => .silent (.ok (Shared.fresh .empty workspace.next))
  | .epsilon => .silent (.ok (Shared.fresh .epsilon workspace.next))
  | .token value => .silent (.ok (Shared.fresh (.token value) workspace.next))
  | .union left right => .silent do
      let left ← workspace.find left
      let right ← workspace.find right
      return left.union right workspace.next
  | .concat left right => .silent do
      let left ← workspace.find left
      let right ← workspace.find right
      return left.concat right workspace.next
  | .star inner => .silent do
      let inner ← workspace.find inner
      return inner.star workspace.next
  | .parse text => readInto reader text workspace.next
  | .reparse source =>
      match workspace.find source with
      | .ok shared => readInto reader (String.ofList (spelling shared.regex)) workspace.next
      | .error error => .silent (.error error)
  | .derive source token => .silent do
      let shared ← workspace.find source
      return shared.derive token workspace.next
  | .residual source word => .silent do
      let shared ← workspace.find source
      return shared.residual word workspace.next
  | .delta source => .silent do
      let shared ← workspace.find source
      return shared.delta workspace.next
  | .operand source position => .silent do
      let shared ← workspace.find source
      match shared.operand? position with
      | some operand => return (operand, workspace.next)
      | none => throw .noOperand

/-- Carries out a step: its expression or its error, and the workspace behind it. -/
def perform (reader : TextReader α) (workspace : Workspace α) (step : Construction α) :
    Logged (Except ConstructionError (Shared α) × Workspace α) :=
  (workspace.construct reader step).map fun
    | .ok (shared, next) => (.ok shared, workspace.store shared next)
    | .error error => (.error error, workspace.skip)

/-- Carries out all steps; the expression of the last one is the result, and the first
error ends the work. -/
def build (reader : TextReader α) (steps : List (Construction α)) :
    Logged (Except ConstructionError (Shared α)) :=
  go start (.error .emptyRegister) steps
where
  /-- Goes on from a workspace and the result of the step before. -/
  go (workspace : Workspace α) (latest : Except ConstructionError (Shared α)) :
      List (Construction α) → Logged (Except ConstructionError (Shared α))
    | [] => .silent latest
    | step :: steps =>
        (workspace.perform reader step).andThen fun
          | (.ok shared, following) => go following (.ok shared) steps
          | (.error error, _) => .silent (.error error)

end Workspace

end Residual
