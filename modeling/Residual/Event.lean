import Residual.Text.Quoted
import Residual.Text.Spelling

/-!
# Events

What the library does can be followed by its events. An event is recorded as the fact it
reports; its level and its wording are functions of that fact.
-/

namespace Residual

/-- The importance of an event, from the least upwards. -/
inductive Level where
  | trace
  | debug
  | info
  | warn
  deriving DecidableEq, Repr

/-- The name of a level in a log. -/
def Level.name : Level → String
  | .trace => "TRACE"
  | .debug => "DEBUG"
  | .info => "INFO"
  | .warn => "WARN"

/-- Something worth reporting. -/
inductive Event where
  /-- Text was left behind an expression that it cannot continue. -/
  | ignored (offset : Nat) (rest : String)
  /-- An expression of so many nodes was read. -/
  | parsed (size : Nat)
  /-- A relation derived an expression of `source` nodes into one of `target` nodes. -/
  | derived (relation : String) (source target : Nat) (accepting : Bool)
  /-- The exploration of a relation ended. -/
  | explored (relation : String) (states transitions : Nat)
  /-- Atomic propositions were registered. -/
  | registered (count : Nat)
  /-- The text of a module was read from a file. -/
  | loading (name : String) (path : String)
  deriving DecidableEq, Repr

namespace Event

/-- The level at which an event is reported. -/
def level : Event → Level
  | .ignored .. | .parsed _ => .debug
  | .derived .. => .trace
  | .explored .. | .loading .. => .info
  | .registered _ => .warn

/-- The wording of an event. -/
def message : Event → String
  | .ignored offset rest =>
      "ignoring input after offset " ++ decimal offset ++ ": " ++ quoted rest
  | .parsed size => "parsed " ++ decimal size ++ " nodes"
  | .derived relation source target accepting =>
      relation ++ ": derived " ++ decimal source ++ " nodes into " ++ decimal target ++
        " nodes, accepting: " ++ (if accepting then "true" else "false")
  | .explored relation states transitions =>
      relation ++ ": explored " ++ decimal states ++ " states and " ++ decimal transitions ++
        " transitions"
  | .registered count =>
      "registered " ++ decimal count ++ " atomic propositions, which always evaluate to false"
  | .loading name path => "loading " ++ name ++ " from " ++ path

end Event

end Residual
