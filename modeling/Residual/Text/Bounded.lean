/-!
# Writing into limited space

A text is written byte by byte, in UTF-8, until the space is used up. What fitted stays
written even if the rest did not, and a character at the limit may be cut in two.
-/

namespace Residual

/-- Why a text was not written completely. -/
inductive WriteError where
  | outOfSpace
  deriving DecidableEq, Repr

/-- The wording of an error. -/
def WriteError.message : WriteError → String
  | .outOfSpace => "failed to write whole buffer"

/-- The bytes of a text that fit into a space of `room` bytes, and the error if these are
not all. -/
def writeWithin (room : Nat) (text : String) : List UInt8 × Option WriteError :=
  let bytes := text.toUTF8.data.toList
  (bytes.take room, if bytes.length ≤ room then none else some .outOfSpace)

end Residual
