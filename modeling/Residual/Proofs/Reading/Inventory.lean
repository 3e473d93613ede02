import Residual.Proofs.Reading.Rules
import Residual.Proofs.Reading.Taking

/-!
# What becomes of the characters that are read

The reader drops brackets, dots and bars, also those of attempts that came to nothing, but
every atom and every star it takes is in the expression it returns. An expression accounts
for a text if its leaves are the atoms of the text, in order, and its stars are as many.
By induction on derivations, what an attempt returns accounts for what it took; behind an
expression in hand, the text of that expression counts as taken too.
-/

namespace Residual

universe u

/-! ## Texts that leave nothing in an expression -/

/-- Nothing but brackets. -/
def Bracketing (text : List Char) : Prop := ∀ value ∈ text, value = '(' ∨ value = ')'

/-- Neither atoms nor stars. -/
def Barren (text : List Char) : Prop :=
  ∀ value ∈ text, Regex.leaf? value = none ∧ value ≠ '*'

theorem bracketing_nil : Bracketing [] := nofun

theorem Bracketing.append {first second : List Char} (before : Bracketing first)
    (behind : Bracketing second) : Bracketing (first ++ second) :=
  List.forall_mem_append.mpr ⟨before, behind⟩

theorem Bracketing.cons {value : Char} {text : List Char}
    (bracket : value = '(' ∨ value = ')') (behind : Bracketing text) :
    Bracketing (value :: text) :=
  List.forall_mem_cons.mpr ⟨bracket, behind⟩

theorem Barren.append {first second : List Char} (before : Barren first)
    (behind : Barren second) : Barren (first ++ second) :=
  List.forall_mem_append.mpr ⟨before, behind⟩

/-- Brackets, dots and bars are neither atoms nor stars. -/
theorem barren_of_forall_mem {text : List Char}
    (all : ∀ value ∈ text, value ∈ ['(', ')', '.', '|']) : Barren text := by
  intro value member
  have cases := all value member
  simp only [List.mem_cons, List.not_mem_nil, or_false] at cases
  rcases cases with rfl | rfl | rfl | rfl
  · exact ⟨rfl, by decide⟩
  · exact ⟨rfl, by decide⟩
  · exact ⟨rfl, by decide⟩
  · exact ⟨rfl, by decide⟩

theorem Bracketing.barren {text : List Char} (bracketing : Bracketing text) : Barren text := by
  apply barren_of_forall_mem
  intro value member
  rcases bracketing value member with rfl | rfl
  · exact List.mem_cons_self
  · exact List.mem_cons_of_mem _ List.mem_cons_self

theorem barren_of_forall_eq {text : List Char} {value : Char}
    (mark : value ∈ ['(', ')', '.', '|']) (all : ∀ other ∈ text, other = value) :
    Barren text := by
  apply barren_of_forall_mem
  intro other member
  rw [all other member]
  exact mark

theorem barren_singleton {value : Char} (mark : value ∈ ['(', ')', '.', '|']) :
    Barren [value] :=
  barren_of_forall_eq mark fun _ member => List.mem_singleton.mp member

theorem Barren.filterMap_leaf? {text : List Char} (barren : Barren text) :
    text.filterMap Regex.leaf? = [] :=
  List.filterMap_eq_nil_iff.mpr fun value member => (barren value member).1

theorem Barren.count_star {text : List Char} (barren : Barren text) : text.count '*' = 0 :=
  List.count_eq_zero.mpr fun member => (barren '*' member).2 rfl

/-! ## Leaves, stars and unions -/

namespace Regex

/-- The leaves of the tree from left to right. -/
def leaves {α : Type u} : Regex α → List (Regex α)
  | .empty => [.empty]
  | .epsilon => [.epsilon]
  | .token value => [.token value]
  | .union left right | .concat left right => left.leaves ++ right.leaves
  | .star inner => inner.leaves

/-- A tree has one binary node less than leaves, and its other nodes are stars. -/
theorem size_add_one {α : Type u} [DecidableEq α] (regex : Regex α) :
    regex.size + 1 = 2 * regex.leaves.length + regex.preorder.count .star := by
  induction regex with
  | empty | epsilon | token => rfl
  | union left right leftIH rightIH | concat left right leftIH rightIH =>
      simp [size, leaves]
      omega
  | star inner innerIH =>
      simp [size, leaves]
      omega

/-- The tree has the atoms of the text as its leaves, in order, a star for every star of the
text, and no more unions than the text has bars. -/
structure Accounts (regex : Regex Char) (text : List Char) : Prop where
  leaves : regex.leaves = text.filterMap leaf?
  stars : regex.preorder.count .star = text.count '*'
  unions : regex.preorder.count .union ≤ text.count '|'

theorem accounts_leaf {value : Char} {regex : Regex Char} (leaf : leaf? value = some regex) :
    regex.Accounts [value] := by
  have atoms : [value].filterMap leaf? = [regex] := by
    rw [List.filterMap_cons_some leaf, List.filterMap_nil]
  have noStar : '*' ∉ [value] := by
    intro star
    cases List.mem_singleton.mp star
    cases leaf
  constructor
  · rw [atoms]
    rcases leaf?_cases leaf with rfl | rfl | rfl <;> rfl
  · rw [List.count_eq_zero.mpr noStar]
    rcases leaf?_cases leaf with rfl | rfl | rfl <;> rfl
  · rcases leaf?_cases leaf with rfl | rfl | rfl <;> exact Nat.zero_le _

theorem Accounts.size_eq {regex : Regex Char} {text : List Char} (accounts : regex.Accounts text) :
    (regex.size : Int) = 2 * (text.filterMap leaf?).length - 1 + text.count '*' := by
  have nodes := regex.size_add_one
  rw [accounts.leaves, accounts.stars] at nodes
  omega

theorem Accounts.append_barren {regex : Regex Char} {text more : List Char}
    (accounts : regex.Accounts text) (barren : Barren more) : regex.Accounts (text ++ more) where
  leaves := by rw [List.filterMap_append, barren.filterMap_leaf?, List.append_nil, accounts.leaves]
  stars := by rw [List.count_append, barren.count_star, accounts.stars, Nat.add_zero]
  unions := by
    rw [List.count_append]
    exact Nat.le_add_right_of_le accounts.unions

theorem Accounts.barren_append {regex : Regex Char} {text less : List Char}
    (accounts : regex.Accounts text) (barren : Barren less) : regex.Accounts (less ++ text) where
  leaves := by rw [List.filterMap_append, barren.filterMap_leaf?, List.nil_append, accounts.leaves]
  stars := by rw [List.count_append, barren.count_star, accounts.stars, Nat.zero_add]
  unions := by
    rw [List.count_append]
    exact Nat.le_add_left_of_le accounts.unions

theorem Accounts.concat {left right : Regex Char} {first second : List Char}
    (before : left.Accounts first) (behind : right.Accounts second) :
    (left.concat right).Accounts (first ++ second) where
  leaves := by
    rw [List.filterMap_append, ← before.leaves, ← behind.leaves]
    rfl
  stars := by simp [before.stars, behind.stars]
  unions := by simpa using Nat.add_le_add before.unions behind.unions

theorem Accounts.union {left right : Regex Char} {first second : List Char}
    (before : left.Accounts first) (behind : right.Accounts second) :
    (left.union right).Accounts (first ++ '|' :: second) where
  leaves := by
    rw [List.filterMap_append, List.filterMap_cons_none rfl, ← before.leaves, ← behind.leaves]
    rfl
  stars := by simp [before.stars, behind.stars]
  unions := by
    simpa [← Nat.add_assoc] using Nat.add_le_add before.unions behind.unions

theorem Accounts.star {inner : Regex Char} {text : List Char} (accounts : inner.Accounts text) :
    inner.star.Accounts (text ++ ['*']) where
  leaves := by
    rw [List.filterMap_append, ← accounts.leaves]
    exact (List.append_nil _).symm
  stars := by simp [accounts.stars]
  unions := by simpa using accounts.unions

end Regex

/-! ## What an attempt makes of what it took -/

/-- An attempt that comes to nothing has taken brackets, at most, and the bar of an
alternative. An expression accounts for what was taken, behind the bar of an alternative,
and with operators for the text of the expression in hand as well. -/
def Task.Explains (task : Task) (taken : List Char) (found : Finding) : Prop :=
  match found, task with
  | .unclosed _, _ => True
  | .nothing, .expression | .nothing, .atom => Bracketing taken
  | .nothing, .alternative => Barren taken
  | .nothing, .operators _ => False
  | .expression regex, .expression | .expression regex, .atom => regex.Accounts taken
  | .expression regex, .alternative => ∃ operand, taken = '|' :: operand ∧ regex.Accounts operand
  | .expression regex, .operators left =>
      ∀ text, left.Accounts text → regex.Accounts (text ++ taken)

/-- The operators behind an atom account for the atom as well. -/
theorem Task.Explains.compound {left : Regex Char} {taken more : List Char} {found : Finding}
    (explains : (Task.operators left).Explains more found) (accounts : left.Accounts taken) :
    Task.expression.Explains (taken ++ more) found := by
  cases found with
  | expression regex => exact explains taken accounts
  | nothing => exact explains.elim
  | unclosed opening => exact trivial

/-- One operator, and then those behind it. -/
theorem Task.Explains.operator {left next : Regex Char} {taken more : List Char}
    {found : Finding} (explains : (Task.operators next).Explains more found)
    (step : ∀ text, left.Accounts text → next.Accounts (text ++ taken)) :
    (Task.operators left).Explains (taken ++ more) found := by
  cases found with
  | expression regex =>
      intro text accounts
      rw [← List.append_assoc]
      exact explains (text ++ taken) (step text accounts)
  | nothing => exact explains.elim
  | unclosed opening => exact trivial

/-- A right operand that is not there leaves at most a dot and brackets behind. -/
theorem exists_barren_factor {start middle : Cursor} {idle : List Char}
    (takes : (start.skip '.').Takes idle middle) (bracketing : Bracketing idle) :
    ∃ taken, start.Takes taken middle ∧ Barren taken := by
  rcases start.exists_takes_skip '.' with ⟨dot, takesDot, dots⟩
  have barren := barren_of_forall_eq (by decide) dots
  exact ⟨dot ++ idle, takesDot.append takes, barren.append bracketing.barren⟩

/-- Every attempt explains what it took. -/
theorem Reads.explains {task : Task} {start : Cursor} {reading : Reading}
    (reads : Reads task start reading) :
    ∃ taken, start.Takes taken reading.after ∧ task.Explains taken reading.found := by
  induction reads with
  | compound _ _ atomIH operatorsIH =>
      rcases atomIH with ⟨taken, takes, accounts⟩
      rcases operatorsIH with ⟨more, takesMore, explains⟩
      exact ⟨taken ++ more, takes.append takesMore, explains.compound accounts⟩
  | @headless start reading _ none atomIH =>
      rcases atomIH with ⟨taken, takes, explains⟩
      rcases reading with ⟨found, after⟩
      cases found with
      | expression left => exact absurd rfl (none left)
      | nothing | unclosed => exact ⟨taken, takes, explains⟩
  | @leaf offset value ahead regex isLeaf =>
      exact ⟨[value], Cursor.takes_cons offset value ahead, Regex.accounts_leaf isLeaf⟩
  | @blocked start _ => exact ⟨[], start.takes_nil, bracketing_nil⟩
  | @group offset closing ahead rest inner _ innerIH =>
      rcases innerIH with ⟨taken, takes, accounts⟩
      have opened := (Cursor.takes_cons offset '(' ahead).append takes
      have closed := opened.append (Cursor.takes_cons closing ')' rest)
      have opening : Barren ['('] := barren_singleton (by decide)
      have inside := Regex.Accounts.barren_append accounts opening
      exact ⟨_, closed, inside.append_barren (barren_singleton (by decide))⟩
  | @unclosedGroup offset ahead _ _ _ _ innerIH =>
      rcases innerIH with ⟨taken, takes, _⟩
      exact ⟨_, (Cursor.takes_cons offset '(' ahead).append takes, trivial⟩
  | @emptyGroup offset ahead after _ innerIH =>
      rcases innerIH with ⟨taken, takes, bracketing⟩
      rcases after.exists_takes_skip ')' with ⟨closing, takesClosing, closes⟩
      have opened := (Cursor.takes_cons offset '(' ahead).append takes
      refine ⟨_, opened.append takesClosing, ?_⟩
      apply Bracketing.append
      · exact Bracketing.cons (.inl rfl) bracketing
      · exact fun value member => .inr (closes value member)
  | @brokenGroup offset opening ahead _ _ innerIH =>
      rcases innerIH with ⟨taken, takes, _⟩
      exact ⟨_, (Cursor.takes_cons offset '(' ahead).append takes, trivial⟩
  | @bar offset ahead reading _ rightIH =>
      rcases rightIH with ⟨taken, takes, explains⟩
      refine ⟨_, (Cursor.takes_cons offset '|' ahead).append takes, ?_⟩
      rcases reading with ⟨found, after⟩
      cases found with
      | expression right => exact ⟨taken, rfl, explains⟩
      | nothing => exact (barren_singleton (by decide)).append (Bracketing.barren explains)
      | unclosed opening => exact trivial
  | @noBar start _ => exact ⟨[], start.takes_nil, bracketing_nil.barren⟩
  | @concat left right start middle _ _ _ rightIH restIH =>
      rcases start.exists_takes_skip '.' with ⟨dot, takesDot, dots⟩
      rcases rightIH with ⟨taken, takes, accounts⟩
      rcases restIH with ⟨more, takesMore, explains⟩
      refine ⟨_, (takesDot.append takes).append takesMore, explains.operator ?_⟩
      intro text inHand
      rw [← List.append_assoc]
      have dotted := inHand.append_barren (barren_of_forall_eq (by decide) dots)
      exact dotted.concat accounts
  | @brokenFactor _ start _ _ _ rightIH =>
      rcases start.exists_takes_skip '.' with ⟨dot, takesDot, _⟩
      rcases rightIH with ⟨taken, takes, _⟩
      exact ⟨_, takesDot.append takes, trivial⟩
  -- Once the attempt at a factor has come to nothing, its dot and brackets stand between the
  -- text in hand and the next operator, where they are barren.
  | union _ _ _ factorIH rightIH restIH =>
      rcases factorIH with ⟨idle, takesIdle, bracketing⟩
      rcases exists_barren_factor takesIdle bracketing with ⟨before, takesBefore, barren⟩
      rcases rightIH with ⟨_, takes, operand, rfl, accounts⟩
      rcases restIH with ⟨more, takesMore, explains⟩
      refine ⟨_, (takesBefore.append takes).append takesMore, explains.operator ?_⟩
      intro text inHand
      rw [← List.append_assoc]
      exact (inHand.append_barren barren).union accounts
  | brokenAlternative _ _ factorIH rightIH =>
      rcases factorIH with ⟨idle, takesIdle, bracketing⟩
      rcases exists_barren_factor takesIdle bracketing with ⟨before, takesBefore, _⟩
      rcases rightIH with ⟨taken, takes, _⟩
      exact ⟨_, takesBefore.append takes, trivial⟩
  | @star _ _ _ offset ahead _ _ _ _ factorIH alternativeIH restIH =>
      rcases factorIH with ⟨idle, takesIdle, bracketing⟩
      rcases exists_barren_factor takesIdle bracketing with ⟨before, takesBefore, barren⟩
      rcases alternativeIH with ⟨taken, takes, unused⟩
      rcases restIH with ⟨more, takesMore, explains⟩
      have takesStar := (takesBefore.append takes).append (Cursor.takes_cons offset '*' ahead)
      refine ⟨_, takesStar.append takesMore, explains.operator ?_⟩
      intro text inHand
      rw [← List.append_assoc]
      exact (inHand.append_barren (barren.append unused)).star
  | done _ _ _ factorIH alternativeIH =>
      rcases factorIH with ⟨idle, takesIdle, bracketing⟩
      rcases exists_barren_factor takesIdle bracketing with ⟨before, takesBefore, barren⟩
      rcases alternativeIH with ⟨taken, takes, unused⟩
      refine ⟨_, takesBefore.append takes, ?_⟩
      intro text inHand
      exact inHand.append_barren (barren.append unused)

/-! ## The inventory of a reading -/

/-- The characters of the text between the offset where a reading began and its end. -/
def Reading.consumed (reading : Reading) (text : List Char) (offset : Nat) : List Char :=
  (text.drop offset).take (reading.after.offset - offset)

/-- A reading leaves the text behind what it consumed. Its expression has the consumed atoms
as leaves, in order, as many stars, at most as many unions as there are bars, and its size
follows; without an expression only brackets were consumed. -/
theorem reading_keeps_inventory (text : List Char) (offset : Nat) :
    let reading := readExpression (.startingAt text offset)
    let consumed := reading.consumed text offset
    reading.after = .startingAt text (offset + consumed.length) ∧
      (∀ regex, reading.found = .expression regex →
        regex.leaves = consumed.filterMap Regex.leaf? ∧
          regex.preorder.count .star = consumed.count '*' ∧
          regex.preorder.count .union ≤ consumed.count '|' ∧
          (regex.size : Int) =
            2 * (consumed.filterMap Regex.leaf?).length - 1 + consumed.count '*') ∧
      (reading.found = .nothing → ∀ value ∈ consumed, value = '(' ∨ value = ')') := by
  intro reading consumed
  have reads : Reads .expression (.startingAt text offset) reading :=
    reads_read .expression (.startingAt text offset)
  rcases reads.explains with ⟨taken, takes, explains⟩
  have same : consumed = taken := takes.eq_take
  rw [same]
  refine ⟨takes.eq_startingAt, ?_, ?_⟩
  · intro regex found
    rw [found] at explains
    have accounts : regex.Accounts taken := explains
    exact ⟨accounts.leaves, accounts.stars, accounts.unions, accounts.size_eq⟩
  · intro nothing
    rw [nothing] at explains
    exact explains

/-- The bar in the group and the empty group come to nothing, and the operators behind them
are tried again further out. In front of a bar, nested empty groups are all that is taken. -/
theorem inventory_of_retried_operators :
    let text := "x(a|)*∅.|b()c)".toList
    let tree : Regex Char :=
      .concat (.star (.token 'a')) (.concat (.union .empty (.token 'b')) (.token 'c'))
    let reading := readExpression (.startingAt text 1)
    let idleText := "x(()|a".toList
    let idle := readExpression (.startingAt idleText 1)
    (reading.found = .expression tree ∧ reading.after = .startingAt text 13) ∧
      (tree.leaves = [.token 'a', .empty, .token 'b', .token 'c'] ∧
        tree.preorder.count .star = 1 ∧ tree.preorder.count .union ≤ 2 ∧
        (tree.size : Int) = 2 * 4 - 1 + 1) ∧
      idle.found = .nothing ∧
      ∀ value ∈ idle.consumed idleText 1, value = '(' ∨ value = ')' := by
  intro text tree reading idleText idle
  have found : reading.found = .expression tree := by decide +kernel
  have nothing : idle.found = .nothing := by decide +kernel
  have consumed : reading.consumed text 1 = "(a|)*∅.|b()c".toList := by decide +kernel
  rcases reading_keeps_inventory text 1 with ⟨after, inventory, _⟩
  rcases reading_keeps_inventory idleText 1 with ⟨_, _, brackets⟩
  rcases inventory tree found with ⟨leaves, stars, unions, size⟩
  rw [consumed] at after leaves stars unions size
  exact ⟨⟨found, after⟩, ⟨leaves, stars, unions, size⟩, nothing, brackets nothing⟩

end Residual
