import Residual.Regex.Derivative
import Residual.Regex.Spelling

/-!
# Configurations

A configuration is what a matching has come to: the expression that the rest of the input
has to match. Configurations are equal when their expressions are, on whatever way they
were reached.
-/

namespace Residual

universe u

/-- The expression still to be matched. -/
structure Configuration (α : Type u) where
  expression : Regex α
  deriving DecidableEq, Hashable, Repr

namespace Configuration

variable {α : Type u}

/-- Whether the input read so far is accepted. -/
def accepting (configuration : Configuration α) : Bool := configuration.expression.nullable

/-- Whether no further input can be accepted. -/
def dead (configuration : Configuration α) : Bool := configuration.expression.matchesNothing

/-- The number of nodes of the expression. -/
def size (configuration : Configuration α) : Nat := configuration.expression.size

instance [Spelled α] : Spelled (Configuration α) :=
  ⟨fun configuration => spelling configuration.expression⟩

end Configuration

end Residual
