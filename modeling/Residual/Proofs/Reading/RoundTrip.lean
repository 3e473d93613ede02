import Residual.Proofs.Reading.Grammar
import Residual.Proofs.Regex.Tokens
import Residual.Regex.Spelling

/-!
# Spelling and reading

The spelling of an expression is a sentence of the grammar, a group for every operator,
as long as no token is a reserved character. The reader therefore gives back the
expression that was spelled. It never makes a token of a reserved character either, and
derivation makes no tokens at all, so everything that is derived from what was read can be
spelled and read again.
-/

namespace Residual

namespace Regex

/-- No token is a character of the notation. -/
def Unreserved (regex : Regex Char) : Prop := ∀ value ∈ regex.tokens, isReserved value = false

instance (regex : Regex Char) : Decidable regex.Unreserved :=
  List.decidableBAll (fun value => isReserved value = false) regex.tokens

/-- The spelling is read to the expression, and to its end. -/
def ReadsBack (regex : Regex Char) : Prop :=
  (Regex.parse (String.ofList (spelling regex))).value = .ok regex ∧
    readExpression (.ofString (String.ofList (spelling regex))) =
      ⟨.expression regex, ⟨(spelling regex).length, []⟩⟩

theorem unreserved_union {left right : Regex Char} :
    (union left right).Unreserved ↔ left.Unreserved ∧ right.Unreserved := by
  simp only [Unreserved, tokens, List.forall_mem_append]

theorem unreserved_concat {left right : Regex Char} :
    (concat left right).Unreserved ↔ left.Unreserved ∧ right.Unreserved := by
  simp only [Unreserved, tokens, List.forall_mem_append]

/-! ## Spellings are sentences -/

/-- A spelling is a starred atom: a leaf, a group, or a group with a star. -/
theorem Unreserved.derives {regex : Regex Char} (unreserved : regex.Unreserved) :
    Derives .starred (spelling regex) regex := by
  induction regex with
  | empty => exact .unstarred .empty
  | epsilon => exact .unstarred .epsilon
  | token value =>
      rw [spelling_token]
      exact .unstarred (.token (unreserved value List.mem_cons_self))
  | union left right leftIH rightIH =>
      rcases unreserved_union.mp unreserved with ⟨leftFree, rightFree⟩
      have inside := Derives.bar (leftIH leftFree) (.single (rightIH rightFree))
      have group := Derives.group inside
      rw [List.append_assoc] at group
      rw [spelling_union]
      exact .unstarred group
  | concat left right leftIH rightIH =>
      rcases unreserved_concat.mp unreserved with ⟨leftFree, rightFree⟩
      have inside := Derives.dot (leftIH leftFree) (.single (rightIH rightFree))
      have group := Derives.group inside
      rw [List.append_assoc] at group
      rw [spelling_concat]
      exact .unstarred group
  | star inner innerIH =>
      have group := Derives.group (.single (innerIH unreserved))
      have starred := Derives.star (.unstarred group)
      rw [List.cons_append, List.append_assoc] at starred
      rw [spelling_star]
      exact starred

theorem Unreserved.readsBack {regex : Regex Char} (unreserved : regex.Unreserved) :
    regex.ReadsBack := by
  have sentence := Derives.single unreserved.derives
  constructor
  · exact sentence.value_parse_eq
  · have read := sentence.readExpression_eq 0 (.inl rfl)
    rw [List.append_nil, Nat.zero_add] at read
    rw [Cursor.ofString, String.toList_ofList]
    exact read

/-! ## Derivation keeps reserved characters out -/

theorem unreserved_delta (regex : Regex Char) : regex.delta.Unreserved := by
  intro value member
  rw [tokens_delta] at member
  exact absurd member List.not_mem_nil

theorem Unreserved.residual {regex : Regex Char} (unreserved : regex.Unreserved)
    (word : List Char) : (regex.residual word).Unreserved :=
  fun value member => unreserved value (mem_tokens_of_mem_residual member)

theorem unreserved_leaf? {value : Char} {regex : Regex Char}
    (leaf : leaf? value = some regex) : regex.Unreserved := by
  unfold leaf? at leaf
  split at leaf
  · cases leaf; exact nofun
  · split at leaf
    · cases leaf; exact nofun
    · split at leaf
      · cases leaf
      · next free =>
          cases leaf
          intro other member
          cases List.mem_singleton.mp member
          simpa using free

end Regex

/-! ## Reading keeps reserved characters out -/

/-- The expression in hand, if there is one, has the property. -/
def Task.Holds (property : Regex Char → Prop) : Task → Prop
  | .operators left => property left
  | .expression | .atom | .alternative => True

/-- A property of leaves that every operator keeps is one of all that is read. -/
theorem Reads.holds {property : Regex Char → Prop}
    (leaf : ∀ {value regex}, Regex.leaf? value = some regex → property regex)
    (concat : ∀ {left right}, property left → property right → property (.concat left right))
    (union : ∀ {left right}, property left → property right → property (.union left right))
    (star : ∀ {inner}, property inner → property (.star inner))
    {task : Task} {start : Cursor} {reading : Reading} (reads : Reads task start reading)
    (hand : task.Holds property) {regex : Regex Char}
    (found : reading.found = .expression regex) : property regex := by
  induction reads generalizing regex with
  | compound _ _ atomIH operatorsIH => exact operatorsIH (atomIH trivial rfl) found
  | headless _ none _ => exact absurd found (none regex)
  | leaf isLeaf => cases found; exact leaf isLeaf
  | blocked | unclosedGroup | emptyGroup | brokenGroup | noBar => cases found
  | brokenFactor | brokenAlternative => cases found
  | group _ innerIH => cases found; exact innerIH trivial rfl
  | bar _ rightIH => exact rightIH trivial found
  | concat _ _ rightIH restIH => exact restIH (concat hand (rightIH trivial rfl)) found
  | union _ _ _ _ rightIH restIH => exact restIH (union hand (rightIH trivial rfl)) found
  | star _ _ _ _ _ restIH => exact restIH (star hand) found
  | done => cases found; exact hand

/-- No reserved character becomes a token. -/
theorem Regex.unreserved_of_parse {text : String} {regex : Regex Char}
    (parsed : (Regex.parse text).value = .ok regex) : regex.Unreserved := by
  rw [Regex.value_parse, Reading.result_eq_ok] at parsed
  exact (reads_read .expression (.ofString text)).holds Regex.unreserved_leaf?
    (fun left right => unreserved_concat.mpr ⟨left, right⟩)
    (fun left right => unreserved_union.mpr ⟨left, right⟩) id trivial parsed

/-- An expression without reserved tokens is read back from its spelling, and whatever is
derived from an expression that was read is such an expression. -/
theorem spelling_reads_back :
    (∀ regex : Regex Char, regex.Unreserved → regex.ReadsBack) ∧
      ∀ (text : String) (regex : Regex Char), (Regex.parse text).value = .ok regex →
        ∀ word : List Char,
          ((regex.residual word).Unreserved ∧ (regex.residual word).ReadsBack) ∧
            ((regex.residual word).delta.Unreserved ∧ (regex.residual word).delta.ReadsBack) := by
  constructor
  · intro regex unreserved
    exact unreserved.readsBack
  · intro text regex parsed word
    have derived := (Regex.unreserved_of_parse parsed).residual word
    have delta := Regex.unreserved_delta (regex.residual word)
    exact ⟨⟨derived, derived.readsBack⟩, ⟨delta, delta.readsBack⟩⟩

/-- Reading `a*b` and deriving by a letter and by a reserved character. -/
theorem spelling_reads_back_letters :
    let regex : Regex Char := .concat (.star (.token 'a')) (.token 'b')
    regex.ReadsBack ∧ (Regex.parse "a*b").value = .ok regex ∧
      (regex.residual ['a', '|']).ReadsBack ∧ (regex.residual ['a', '|']).delta.ReadsBack := by
  intro regex
  have left := Derives.star (.unstarred (.token (show isReserved 'a' = false by decide)))
  have right := Derives.unstarred (.token (show isReserved 'b' = false by decide))
  have parsed : (Regex.parse "a*b").value = .ok regex :=
    (Derives.juxtaposition left (.single right)).value_parse_eq
  have derived := spelling_reads_back.2 "a*b" regex parsed ['a', '|']
  exact ⟨spelling_reads_back.1 regex (by decide), parsed, derived.1.2, derived.2.2⟩

end Residual
