import Residual.Sharing.Node

/-!
# Expressions beside their nodes

A node with a thousand nodes below it may unfold into a tree that is too large to walk
through, since a shared operand counts once for every way that leads to it. A `Shared`
expression therefore keeps the plain expression beside its node and never unfolds the one
to get the other. Every operation works on both, and `erase_node` says that they agree.
-/

namespace Residual

universe u

/-- An expression and the node that shows which of its parts are shared. -/
structure Shared (α : Type u) where
  regex : Regex α
  node : Node α
  erase_node : node.erase = regex

namespace Shared

variable {α : Type u}

/-- An expression in which every node is new. -/
def fresh (regex : Regex α) (next : Nat) : Shared α × Nat :=
  let made := Node.fresh regex next
  (⟨regex, made.1, Node.erase_fresh regex next⟩, made.2)

/-- A new union of two expressions that are shared with it. -/
def union (left right : Shared α) (next : Nat) : Shared α × Nat :=
  (⟨.union left.regex right.regex, .union next left.node right.node, by
    rw [Node.erase, left.erase_node, right.erase_node]⟩, next + 1)

/-- A new concatenation of two expressions that are shared with it. -/
def concat (left right : Shared α) (next : Nat) : Shared α × Nat :=
  (⟨.concat left.regex right.regex, .concat next left.node right.node, by
    rw [Node.erase, left.erase_node, right.erase_node]⟩, next + 1)

/-- A new star over an expression that is shared with it. -/
def star (inner : Shared α) (next : Nat) : Shared α × Nat :=
  (⟨.star inner.regex, .star next inner.node, by rw [Node.erase, inner.erase_node]⟩, next + 1)

/-- The delta. -/
def delta (shared : Shared α) (next : Nat) : Shared α × Nat :=
  let made := shared.node.delta next
  (⟨shared.regex.delta, made.1, by rw [Node.erase_delta, shared.erase_node]⟩, made.2)

/-- The derivative by a token. -/
def derive [DecidableEq α] (token : α) (shared : Shared α) (next : Nat) : Shared α × Nat :=
  let made := shared.node.derive token next
  (⟨shared.regex.derive token, made.1, by rw [Node.erase_derive, shared.erase_node]⟩, made.2)

/-- The residual of a word. -/
def residual [DecidableEq α] (shared : Shared α) (word : List α) (next : Nat) :
    Shared α × Nat :=
  let made := shared.node.residual word next
  (⟨shared.regex.residual word, made.1, by rw [Node.erase_residual, shared.erase_node]⟩, made.2)

/-- Operands of a node are operands of the expression, at the same position. -/
theorem erase_operand {shared : Shared α} {position : Nat} {node : Node α} {regex : Regex α}
    (found : shared.node.operands[position]? = some node)
    (same : shared.regex.operands[position]? = some regex) : node.erase = regex := by
  rw [← shared.erase_node, ← Node.erase_operands, List.getElem?_map, found] at same
  exact Option.some.inj same

/-- The operand at a position. -/
def operand? (shared : Shared α) (position : Nat) : Option (Shared α) :=
  match found : shared.node.operands[position]?, same : shared.regex.operands[position]? with
  | some node, some regex => some ⟨regex, node, erase_operand found same⟩
  | _, _ => none

/-- There is an operand wherever the node has one. -/
theorem node_operand? (shared : Shared α) (position : Nat) :
    (shared.operand? position).map (·.node) = shared.node.operands[position]? := by
  have same : shared.regex.operands[position]? =
      (shared.node.operands[position]?).map Node.erase := by
    rw [← shared.erase_node, ← Node.erase_operands, List.getElem?_map]
  unfold operand?
  split
  · next found _ => exact found.symm
  · next none =>
      cases found : shared.node.operands[position]? with
      | none => rfl
      | some node => exact (none node node.erase found (by rw [same, found]; rfl)).elim

end Shared

end Residual
