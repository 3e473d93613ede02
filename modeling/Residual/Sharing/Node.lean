import Residual.Regex.Derivative

/-!
# Expressions with the identity of their nodes

Equality of expressions ignores which nodes are shared, but a drawing of an expression
does not. A `Node` is an expression whose every node carries a serial number: nodes with
one number are one node, met again. The operations below are those of plain expressions;
they hand out numbers from `next` upwards and return the first number still free.
`erase` forgets the numbers, and each operation is tied to the plain one through it.
-/

namespace Residual

universe u

/-- An expression with a serial number at every node. -/
inductive Node (α : Type u) where
  | empty (serial : Nat)
  | epsilon (serial : Nat)
  | token (serial : Nat) (value : α)
  | union (serial : Nat) (left right : Node α)
  | concat (serial : Nat) (left right : Node α)
  | star (serial : Nat) (inner : Node α)
  deriving DecidableEq, Repr

namespace Node

variable {α : Type u}

/-- The serial number of the outermost node. -/
def serial : Node α → Nat
  | .empty serial | .epsilon serial | .token serial _ => serial
  | .union serial _ _ | .concat serial _ _ | .star serial _ => serial

/-- The expression without its numbers. -/
def erase : Node α → Regex α
  | .empty _ => .empty
  | .epsilon _ => .epsilon
  | .token _ value => .token value
  | .union _ left right => .union left.erase right.erase
  | .concat _ left right => .concat left.erase right.erase
  | .star _ inner => .star inner.erase

/-- The operands themselves, not copies of them. -/
def operands : Node α → List (Node α)
  | .empty _ | .epsilon _ | .token _ _ => []
  | .union _ left right | .concat _ left right => [left, right]
  | .star _ inner => [inner]

theorem erase_operands (node : Node α) :
    node.operands.map erase = node.erase.operands := by
  cases node <;> rfl

/-- An expression in which every node is new. -/
def fresh : Regex α → Nat → Node α × Nat
  | .empty, next => (.empty next, next + 1)
  | .epsilon, next => (.epsilon next, next + 1)
  | .token value, next => (.token next value, next + 1)
  | .union left right, next =>
      let (left, following) := fresh left (next + 1)
      let (right, following) := fresh right following
      (.union next left right, following)
  | .concat left right, next =>
      let (left, following) := fresh left (next + 1)
      let (right, following) := fresh right following
      (.concat next left right, following)
  | .star inner, next =>
      let (inner, following) := fresh inner (next + 1)
      (.star next inner, following)

/-- The delta, which shares no node with its operand. -/
def delta : Node α → Nat → Node α × Nat
  | .empty _, next | .token _ _, next => (.empty next, next + 1)
  | .epsilon _, next | .star _ _, next => (.epsilon next, next + 1)
  | .union _ left right, next =>
      let (left, following) := left.delta (next + 1)
      let (right, following) := right.delta following
      (.union next left right, following)
  | .concat _ left right, next =>
      let (left, following) := left.delta (next + 1)
      let (right, following) := right.delta following
      (.concat next left right, following)

/-- The derivative by a token. It shares the right operand of every concatenation that it
enters and the operand of every star; the star above that operand is a new node. -/
def derive [DecidableEq α] (token : α) : Node α → Nat → Node α × Nat
  | .empty _, next | .epsilon _, next => (.empty next, next + 1)
  | .token _ value, next =>
      (if value = token then .epsilon next else .empty next, next + 1)
  | .union _ left right, next =>
      let (left, following) := left.derive token (next + 1)
      let (right, following) := right.derive token following
      (.union next left right, following)
  | .concat _ left right, next =>
      let (derived, following) := left.derive token (next + 3)
      let (delta, following) := left.delta following
      let (continued, following) := right.derive token following
      (.union next (.concat (next + 1) derived right) (.concat (next + 2) delta continued),
        following)
  | .star _ inner, next =>
      let (derived, following) := inner.derive token (next + 2)
      (.concat next derived (.star (next + 1) inner), following)

/-- The residual of a word. That of the empty word is the node itself. -/
def residual [DecidableEq α] (node : Node α) (word : List α) (next : Nat) : Node α × Nat :=
  word.foldl (fun (current, next) token => current.derive token next) (node, next)

@[simp] theorem erase_fresh (regex : Regex α) (next : Nat) :
    (fresh regex next).1.erase = regex := by
  induction regex generalizing next with
  | empty | epsilon | token => rfl
  | union left right leftErase rightErase | concat left right leftErase rightErase =>
      simp [fresh, erase, leftErase, rightErase]
  | star inner innerErase => simp [fresh, erase, innerErase]

@[simp] theorem erase_delta (node : Node α) (next : Nat) :
    (node.delta next).1.erase = node.erase.delta := by
  induction node generalizing next with
  | empty | epsilon | token | star => rfl
  | union _ left right leftErase rightErase | concat _ left right leftErase rightErase =>
      simp [delta, erase, Regex.delta, leftErase, rightErase]

@[simp] theorem erase_derive [DecidableEq α] (token : α) (node : Node α) (next : Nat) :
    (node.derive token next).1.erase = node.erase.derive token := by
  induction node generalizing next with
  | empty | epsilon => rfl
  | token _ value =>
      simp only [derive, erase, Regex.derive]
      split <;> rfl
  | union _ left right leftErase rightErase =>
      simp [derive, erase, Regex.derive, leftErase, rightErase]
  | concat _ left right leftErase rightErase =>
      simp [derive, erase, Regex.derive, leftErase, rightErase]
  | star _ inner innerErase => simp [derive, erase, Regex.derive, innerErase]

@[simp] theorem erase_residual [DecidableEq α] (node : Node α) (word : List α) (next : Nat) :
    (node.residual word next).1.erase = node.erase.residual word := by
  induction word generalizing node next with
  | nil => rfl
  | cons token word wordErase =>
      have stepped := wordErase (node.derive token next).1 (node.derive token next).2
      rw [erase_derive] at stepped
      exact stepped

end Node

end Residual
