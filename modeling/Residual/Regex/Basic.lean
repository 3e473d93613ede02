/-!
# Regular expressions over arbitrary tokens

An expression is a finite tree over a token type of the reader's choice. Trees are
kept exactly as they were built: no operation drops an `∅`, absorbs an `ε` or reorders
operands, so two expressions are the same value precisely when they have the same shape
and the same tokens. Everything that recognises a state it has seen before rests on this
equality, which is why it is derived and never replaced by an equivalence.
-/

namespace Residual

universe u

/-- A regular expression over tokens of type `α`. -/
inductive Regex (α : Type u) where
  /-- The language without words. -/
  | empty : Regex α
  /-- The language whose only word is the empty one. -/
  | epsilon : Regex α
  /-- The language whose only word is the given token. -/
  | token : α → Regex α
  /-- The words of either operand. -/
  | union : Regex α → Regex α → Regex α
  /-- A word of the left operand followed by a word of the right one. -/
  | concat : Regex α → Regex α → Regex α
  /-- Any number of words of the operand, one after the other. -/
  | star : Regex α → Regex α
  deriving DecidableEq, Hashable, Repr

/-- The outermost constructor of an expression, without its operands. -/
inductive Label (α : Type u) where
  | empty
  | epsilon
  | token (value : α)
  | union
  | concat
  | star
  deriving DecidableEq, Repr

/-- The glyph of a constructor. -/
def Label.symbol {α : Type u} : Label α → String
  | .empty => "∅"
  | .epsilon => "ε"
  | .token _ => "τ"
  | .union => "|"
  | .concat => "∘"
  | .star => "*"

namespace Regex

variable {α : Type u}

instance : Inhabited (Regex α) := ⟨.empty⟩

/-- The outermost constructor. -/
def label : Regex α → Label α
  | .empty => .empty
  | .epsilon => .epsilon
  | .token value => .token value
  | .union _ _ => .union
  | .concat _ _ => .concat
  | .star _ => .star

/-- The operands of the outermost constructor, left to right. -/
def operands : Regex α → List (Regex α)
  | .empty | .epsilon | .token _ => []
  | .union left right | .concat left right => [left, right]
  | .star inner => [inner]

/-- The number of nodes of the tree. -/
def size : Regex α → Nat
  | .empty | .epsilon | .token _ => 1
  | .union left right | .concat left right => 1 + left.size + right.size
  | .star inner => 1 + inner.size

theorem size_pos (regex : Regex α) : 0 < regex.size := by
  cases regex <;> simp only [size] <;> omega

/-- The number of nodes of several trees. -/
def sizes : List (Regex α) → Nat
  | [] => 0
  | regex :: later => regex.size + sizes later

@[simp] theorem sizes_append (first second : List (Regex α)) :
    sizes (first ++ second) = sizes first + sizes second := by
  induction first with
  | nil => simp only [List.nil_append, sizes, Nat.zero_add]
  | cons regex first ih => simp only [List.cons_append, sizes, ih, Nat.add_assoc]

/-- A node counts for itself and for each of its operands. -/
theorem size_eq_operands (regex : Regex α) : regex.size = 1 + sizes regex.operands := by
  cases regex <;> simp [size, sizes, operands, Nat.add_assoc]

/-- The constructors of the tree in front of `rest`, every node before its operands and
these from left to right. -/
def preorderOnto : Regex α → List (Label α) → List (Label α)
  | .empty, rest => .empty :: rest
  | .epsilon, rest => .epsilon :: rest
  | .token value, rest => .token value :: rest
  | .union left right, rest => .union :: left.preorderOnto (right.preorderOnto rest)
  | .concat left right, rest => .concat :: left.preorderOnto (right.preorderOnto rest)
  | .star inner, rest => .star :: inner.preorderOnto rest

/-- The constructors of the tree, every node before its operands and these from left to
right. -/
def preorder (regex : Regex α) : List (Label α) := regex.preorderOnto []

theorem preorderOnto_eq_append (regex : Regex α) (rest : List (Label α)) :
    regex.preorderOnto rest = regex.preorder ++ rest := by
  unfold preorder
  induction regex generalizing rest with
  | empty | epsilon | token => rfl
  | union left right leftAppend rightAppend | concat left right leftAppend rightAppend =>
      simp only [preorderOnto, List.cons_append]
      rw [rightAppend rest, leftAppend, leftAppend (right.preorderOnto []), List.append_assoc]
  | star inner innerAppend =>
      simp only [preorderOnto, List.cons_append]
      rw [innerAppend rest]

@[simp] theorem preorder_empty : (.empty : Regex α).preorder = [.empty] := rfl

@[simp] theorem preorder_epsilon : (.epsilon : Regex α).preorder = [.epsilon] := rfl

@[simp] theorem preorder_token (value : α) : (token value).preorder = [.token value] := rfl

@[simp] theorem preorder_union (left right : Regex α) :
    (left.union right).preorder = .union :: (left.preorder ++ right.preorder) := by
  rw [← preorderOnto_eq_append]
  rfl

@[simp] theorem preorder_concat (left right : Regex α) :
    (left.concat right).preorder = .concat :: (left.preorder ++ right.preorder) := by
  rw [← preorderOnto_eq_append]
  rfl

@[simp] theorem preorder_star (inner : Regex α) :
    inner.star.preorder = .star :: inner.preorder := rfl

theorem length_preorder (regex : Regex α) : regex.preorder.length = regex.size := by
  induction regex with
  | empty | epsilon | token => rfl
  | union left right leftLength rightLength | concat left right leftLength rightLength =>
      simp [size, leftLength, rightLength]
      omega
  | star inner innerLength =>
      simp [size, innerLength]
      omega

/-- Whether the expression has no words at all. A union needs both operands to have
none, a concatenation needs one, and a star always has the empty word. -/
def matchesNothing : Regex α → Bool
  | .empty => true
  | .epsilon | .token _ | .star _ => false
  | .union left right => left.matchesNothing && right.matchesNothing
  | .concat left right => left.matchesNothing || right.matchesNothing

end Regex

end Residual
