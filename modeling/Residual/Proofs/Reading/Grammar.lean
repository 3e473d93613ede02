import Residual.Proofs.Reading.Rules
import Residual.Regex.Parse

/-!
# The grammar of expressions

`Derives` is the notation of expressions as a grammar, with the tree of every text. It
says nothing of an order in which operators would be attempted. A sentence is read to its
tree wherever the text ends or a closing bracket follows: an attempt at the wrong operator
finds nothing and, because the text is well formed, takes nothing. In particular a
sentence has one tree only.
-/

namespace Residual

/-- What a text can be in the grammar. -/
inductive Category where
  /-- A whole expression. -/
  | sentence
  /-- An atom and the stars behind it. -/
  | starred
  /-- A leaf or a group. -/
  | atom
  deriving DecidableEq, Repr

/-- The grammar. Binary operators take what is on their right as far as it goes; a dot may
be left out, and the brackets of a group leave no trace. -/
inductive Derives : Category → List Char → Regex Char → Prop where
  | token {value : Char} : isReserved value = false → Derives .atom [value] (.token value)
  | empty : Derives .atom ['∅'] .empty
  | epsilon : Derives .atom ['ε'] .epsilon
  | group {text : List Char} {tree : Regex Char} :
      Derives .sentence text tree → Derives .atom ('(' :: (text ++ [')'])) tree
  | unstarred {text : List Char} {tree : Regex Char} :
      Derives .atom text tree → Derives .starred text tree
  | star {text : List Char} {tree : Regex Char} :
      Derives .starred text tree → Derives .starred (text ++ ['*']) (.star tree)
  | single {text : List Char} {tree : Regex Char} :
      Derives .starred text tree → Derives .sentence text tree
  | juxtaposition {first second : List Char} {left right : Regex Char} :
      Derives .starred first left → Derives .sentence second right →
        Derives .sentence (first ++ second) (.concat left right)
  | dot {first second : List Char} {left right : Regex Char} :
      Derives .starred first left → Derives .sentence second right →
        Derives .sentence (first ++ '.' :: second) (.concat left right)
  | bar {first second : List Char} {left right : Regex Char} :
      Derives .starred first left → Derives .sentence second right →
        Derives .sentence (first ++ '|' :: second) (.union left right)

/-- A text that may follow a sentence. -/
def EndsSentence (rest : List Char) : Prop := rest = [] ∨ ∃ later, rest = ')' :: later

/-! ## Attempts that find nothing -/

theorem Cursor.blocked_nil (offset : Nat) : Blocked ⟨offset, []⟩ := by
  intro value next
  cases next

theorem Cursor.blocked_cons (offset : Nat) {value : Char} (ahead : List Char)
    (stops : value ∈ ['|', '*', '.', ')']) : Blocked ⟨offset, value :: ahead⟩ := by
  intro other next
  cases next
  exact stops

/-- An attempt at a right operand takes nothing where no atom begins, unless it takes a dot. -/
theorem Cursor.Blocked.reads {cursor : Cursor} (blocked : cursor.Blocked)
    (noDot : cursor.peek ≠ some '.') :
    Reads .expression (cursor.skip '.') ⟨.nothing, cursor⟩ := by
  rw [skip_of_peek_ne noDot]
  exact .headless (.blocked blocked) nofun

/-- The expression in hand is kept where a sentence may end. -/
theorem EndsSentence.reads {rest : List Char} (ends : EndsSentence rest) (left : Regex Char)
    (offset : Nat) : Reads (.operators left) ⟨offset, rest⟩ ⟨.expression left, ⟨offset, rest⟩⟩ := by
  rcases ends with rfl | ⟨later, rfl⟩
  · have blocked := Cursor.blocked_nil offset
    exact .done (blocked.reads nofun) (.noBar nofun) nofun
  · have blocked : Cursor.Blocked ⟨offset, ')' :: later⟩ := Cursor.blocked_cons offset later (by simp)
    exact .done (blocked.reads (by simp)) (.noBar (by simp)) (by simp)

/-! ## Reading along a derivation -/

/-- A text of the grammar begins like an atom. -/
theorem Derives.begins {category : Category} {text : List Char} {tree : Regex Char}
    (derives : Derives category text tree) :
    ∃ value ahead, text = value :: ahead ∧ value ∉ ['|', '*', '.', ')'] := by
  induction derives with
  | @token value free =>
      refine ⟨value, [], rfl, ?_⟩
      intro stops
      have taken := isReserved_iff.mpr (.inr (.inr (.inr stops)))
      rw [free] at taken
      cases taken
  | empty => exact ⟨'∅', [], rfl, by decide⟩
  | epsilon => exact ⟨'ε', [], rfl, by decide⟩
  | @group text => exact ⟨'(', text ++ [')'], rfl, by decide⟩
  | unstarred _ ih | single _ ih => exact ih
  | star _ ih =>
      rcases ih with ⟨value, ahead, rfl, begins⟩
      exact ⟨value, ahead ++ ['*'], rfl, begins⟩
  | @juxtaposition _ second _ _ _ _ ih =>
      rcases ih with ⟨value, ahead, rfl, begins⟩
      exact ⟨value, ahead ++ second, rfl, begins⟩
  | @dot _ second _ _ _ _ ih =>
      rcases ih with ⟨value, ahead, rfl, begins⟩
      exact ⟨value, ahead ++ '.' :: second, rfl, begins⟩
  | @bar _ second _ _ _ _ ih =>
      rcases ih with ⟨value, ahead, rfl, begins⟩
      exact ⟨value, ahead ++ '|' :: second, rfl, begins⟩

/-- A text of a category is read to its tree. An atom is read whatever follows it. Behind
a starred atom the reader still has to go on with operators, so its tree is only the one
in hand there. A sentence is read if it may end. -/
def Category.Reads (category : Category) (text : List Char) (tree : Regex Char) : Prop :=
  match category with
  | .atom => ∀ offset rest,
      Residual.Reads .atom ⟨offset, text ++ rest⟩ ⟨.expression tree, ⟨offset + text.length, rest⟩⟩
  | .starred => ∀ offset rest reading,
      Residual.Reads (.operators tree) ⟨offset + text.length, rest⟩ reading →
        Residual.Reads .expression ⟨offset, text ++ rest⟩ reading
  | .sentence => ∀ offset rest, EndsSentence rest →
      Residual.Reads .expression ⟨offset, text ++ rest⟩
        ⟨.expression tree, ⟨offset + text.length, rest⟩⟩

/-- Where a sentence of two operands ends. -/
theorem length_operands (offset : Nat) (first second : List Char) (operator : Char) :
    offset + (first ++ operator :: second).length =
      offset + first.length + 1 + second.length := by
  rw [List.length_append, List.length_cons, Nat.add_comm second.length 1, ← Nat.add_assoc,
    ← Nat.add_assoc]

theorem Derives.reads {category : Category} {text : List Char} {tree : Regex Char}
    (derives : Derives category text tree) : category.Reads text tree := by
  induction derives with
  | @token value free =>
      intro offset rest
      exact .leaf (Regex.leaf?_eq_token free)
  | empty | epsilon =>
      intro offset rest
      exact .leaf rfl
  | @group text tree _ ih =>
      intro offset rest
      have place := length_operands offset ([] : List Char) (text ++ [')']) '('
      rw [List.nil_append, List.length_append] at place
      rw [place, List.cons_append, List.append_assoc]
      exact .group (ih (offset + 1) (')' :: rest) (.inr ⟨rest, rfl⟩))
  | unstarred _ ih =>
      intro offset rest reading operators
      exact .compound (ih offset rest) operators
  | @star text tree _ ih =>
      intro offset rest reading operators
      have blocked : Cursor.Blocked ⟨offset + text.length, '*' :: rest⟩ :=
        Cursor.blocked_cons _ rest (by simp)
      rw [List.length_append, ← Nat.add_assoc] at operators
      rw [List.append_assoc]
      apply ih offset ('*' :: rest)
      exact .star (blocked.reads (by simp)) (.noBar (by simp)) operators
  | single _ ih =>
      intro offset rest ends
      exact ih offset rest _ (ends.reads _ _)
  | @juxtaposition first second left right _ sentence leftIH rightIH =>
      intro offset rest ends
      rcases sentence.begins with ⟨value, ahead, begins, notBlocked⟩
      have noDot : Cursor.peek ⟨offset + first.length, second ++ rest⟩ ≠ some '.' := by
        intro dot
        rw [begins] at dot
        cases dot
        exact notBlocked (by simp)
      have operand := rightIH (offset + first.length) rest ends
      rw [← Cursor.skip_of_peek_ne noDot] at operand
      rw [List.append_assoc, List.length_append, ← Nat.add_assoc]
      apply leftIH offset (second ++ rest)
      exact .concat operand (ends.reads _ _)
  | @dot first second left right _ _ leftIH rightIH =>
      intro offset rest ends
      have operand := rightIH (offset + first.length + 1) rest ends
      rw [length_operands, List.append_assoc]
      apply leftIH offset ('.' :: (second ++ rest))
      apply Residual.Reads.concat
      · rw [Cursor.skip_cons_self]
        exact operand
      · exact ends.reads _ _
  | @bar first second left right _ _ leftIH rightIH =>
      intro offset rest ends
      have blocked : Cursor.Blocked ⟨offset + first.length, '|' :: (second ++ rest)⟩ :=
        Cursor.blocked_cons _ _ (by simp)
      have operand := rightIH (offset + first.length + 1) rest ends
      rw [length_operands, List.append_assoc]
      apply leftIH offset ('|' :: (second ++ rest))
      exact .union (blocked.reads (by simp)) (.bar operand) (ends.reads _ _)

/-- The reader reads a sentence to its tree and stops behind it. -/
theorem Derives.readExpression_eq {text : List Char} {tree : Regex Char}
    (sentence : Derives .sentence text tree) (offset : Nat) {rest : List Char}
    (ends : EndsSentence rest) :
    readExpression ⟨offset, text ++ rest⟩ =
      ⟨.expression tree, ⟨offset + text.length, rest⟩⟩ :=
  (sentence.reads offset rest ends).read_eq

/-- A text that is a sentence is read to its tree. -/
theorem Derives.value_parse_eq {text : List Char} {tree : Regex Char}
    (sentence : Derives .sentence text tree) :
    (Regex.parse (String.ofList text)).value = .ok tree := by
  have read := sentence.readExpression_eq 0 (.inl rfl)
  rw [List.append_nil] at read
  rw [Regex.value_parse, Cursor.ofString, String.toList_ofList, read]
  rfl

/-- The grammar gives a sentence one tree. -/
theorem Derives.tree_eq {text : List Char} {tree other : Regex Char}
    (sentence : Derives .sentence text tree) (again : Derives .sentence text other) :
    tree = other := by
  have read := sentence.value_parse_eq
  rw [again.value_parse_eq] at read
  cases read
  rfl

/-- Every sentence is read to its tree, in front of a closing bracket and at the end of the
text, and what follows it is left unread. -/
theorem sentences_are_read {text : List Char} {tree : Regex Char}
    (sentence : Derives .sentence text tree) :
    (∀ offset rest, EndsSentence rest →
      readExpression ⟨offset, text ++ rest⟩ =
        ⟨.expression tree, ⟨offset + text.length, rest⟩⟩) ∧
      (Regex.parse (String.ofList text)).value = .ok tree :=
  ⟨fun offset _ ends => sentence.readExpression_eq offset ends, sentence.value_parse_eq⟩

/-- The sentence `a*b|(∅.ε)` in front of a closing bracket. -/
theorem sentence_is_read_before_bracket :
    let tree : Regex Char :=
      .concat (.star (.token 'a')) (.union (.token 'b') (.concat .empty .epsilon))
    readExpression (.ofString "a*b|(∅.ε))c") = ⟨.expression tree, ⟨9, [')', 'c']⟩⟩ ∧
      (Regex.parse "a*b|(∅.ε)").value = .ok tree := by
  intro tree
  have left := Derives.star (.unstarred (.token (show isReserved 'a' = false by decide)))
  have group := Derives.group (.dot (.unstarred .empty) (.single (.unstarred .epsilon)))
  have middle := Derives.unstarred (.token (show isReserved 'b' = false by decide))
  have read := sentences_are_read (.juxtaposition left (.bar middle (.single (.unstarred group))))
  exact ⟨read.1 0 [')', 'c'] (.inr ⟨['c'], rfl⟩), read.2⟩

end Residual
