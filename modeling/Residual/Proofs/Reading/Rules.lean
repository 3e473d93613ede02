import Residual.Regex.Reader

/-!
# The rules of the reader

`Reads` derives the readings of the reader rule by rule: a premise for every attempt that
is made, in order, and a conclusion for what comes of them. Every reading has exactly one
derivation, so what is to be known about all texts is proved by induction on derivations,
and what a certain text is read as by giving one.
-/

namespace Residual

/-- The expression that a character stands for by itself. -/
def Regex.leaf? (value : Char) : Option (Regex Char) :=
  if value = '∅' then some .empty
  else if value = 'ε' then some .epsilon
  else if isReserved value then none
  else some (.token value)

/-- No atom begins where the cursor stands. -/
def Cursor.Blocked (cursor : Cursor) : Prop :=
  ∀ value, cursor.peek = some value → value ∈ ['|', '*', '.', ')']

/-- What the reader attempts. -/
inductive Task where
  /-- An atom and the operators behind it. -/
  | expression
  /-- A leaf or a group. -/
  | atom
  /-- The right operand of a union, behind its bar. -/
  | alternative
  /-- The operators behind an expression. -/
  | operators (left : Regex Char)

/-- What comes of an attempt. -/
def Task.read : Task → Cursor → Reading
  | .expression, start => readExpression start
  | .atom, start => readAtom start
  | .alternative, start => readAlternative start
  | .operators left, start => readOperators left start

/-- The order in which attempts at one place lead to each other. -/
def Task.rank : Task → Nat
  | .atom => 0
  | .expression => 1
  | .alternative => 2
  | .operators _ => 3

/-- The rules. The right operand of a concatenation is an expression that is attempted
everywhere, behind a dot if there is one; at the end of the text that attempt finds nothing. -/
inductive Reads : Task → Cursor → Reading → Prop where
  | compound {start middle : Cursor} {left : Regex Char} {reading : Reading} :
      Reads .atom start ⟨.expression left, middle⟩ →
        Reads (.operators left) middle reading → Reads .expression start reading
  | headless {start : Cursor} {reading : Reading} :
      Reads .atom start reading → (∀ left, reading.found ≠ .expression left) →
        Reads .expression start reading
  | leaf {offset : Nat} {value : Char} {ahead : List Char} {regex : Regex Char} :
      Regex.leaf? value = some regex →
        Reads .atom ⟨offset, value :: ahead⟩ ⟨.expression regex, ⟨offset + 1, ahead⟩⟩
  | blocked {start : Cursor} : start.Blocked → Reads .atom start ⟨.nothing, start⟩
  | group {offset closing : Nat} {ahead rest : List Char} {inner : Regex Char} :
      Reads .expression ⟨offset + 1, ahead⟩ ⟨.expression inner, ⟨closing, ')' :: rest⟩⟩ →
        Reads .atom ⟨offset, '(' :: ahead⟩ ⟨.expression inner, ⟨closing + 1, rest⟩⟩
  | unclosedGroup {offset : Nat} {ahead : List Char} {inner : Regex Char} {after : Cursor} :
      Reads .expression ⟨offset + 1, ahead⟩ ⟨.expression inner, after⟩ →
        after.peek ≠ some ')' →
          Reads .atom ⟨offset, '(' :: ahead⟩ ⟨.unclosed offset, after⟩
  | emptyGroup {offset : Nat} {ahead : List Char} {after : Cursor} :
      Reads .expression ⟨offset + 1, ahead⟩ ⟨.nothing, after⟩ →
        Reads .atom ⟨offset, '(' :: ahead⟩ ⟨.nothing, after.skip ')'⟩
  | brokenGroup {offset opening : Nat} {ahead : List Char} {after : Cursor} :
      Reads .expression ⟨offset + 1, ahead⟩ ⟨.unclosed opening, after⟩ →
        Reads .atom ⟨offset, '(' :: ahead⟩ ⟨.unclosed opening, after⟩
  | bar {offset : Nat} {ahead : List Char} {reading : Reading} :
      Reads .expression ⟨offset + 1, ahead⟩ reading →
        Reads .alternative ⟨offset, '|' :: ahead⟩ reading
  | noBar {start : Cursor} :
      start.peek ≠ some '|' → Reads .alternative start ⟨.nothing, start⟩
  | concat {left right : Regex Char} {start middle : Cursor} {reading : Reading} :
      Reads .expression (start.skip '.') ⟨.expression right, middle⟩ →
        Reads (.operators (.concat left right)) middle reading →
          Reads (.operators left) start reading
  | brokenFactor {left : Regex Char} {start after : Cursor} {opening : Nat} :
      Reads .expression (start.skip '.') ⟨.unclosed opening, after⟩ →
        Reads (.operators left) start ⟨.unclosed opening, after⟩
  | union {left right : Regex Char} {start middle last : Cursor} {reading : Reading} :
      Reads .expression (start.skip '.') ⟨.nothing, middle⟩ →
        Reads .alternative middle ⟨.expression right, last⟩ →
          Reads (.operators (.union left right)) last reading →
            Reads (.operators left) start reading
  | brokenAlternative {left : Regex Char} {start middle after : Cursor} {opening : Nat} :
      Reads .expression (start.skip '.') ⟨.nothing, middle⟩ →
        Reads .alternative middle ⟨.unclosed opening, after⟩ →
          Reads (.operators left) start ⟨.unclosed opening, after⟩
  | star {left : Regex Char} {start middle : Cursor} {offset : Nat} {ahead : List Char}
      {reading : Reading} :
      Reads .expression (start.skip '.') ⟨.nothing, middle⟩ →
        Reads .alternative middle ⟨.nothing, ⟨offset, '*' :: ahead⟩⟩ →
          Reads (.operators (.star left)) ⟨offset + 1, ahead⟩ reading →
            Reads (.operators left) start reading
  | done {left : Regex Char} {start middle last : Cursor} :
      Reads .expression (start.skip '.') ⟨.nothing, middle⟩ →
        Reads .alternative middle ⟨.nothing, last⟩ → last.peek ≠ some '*' →
          Reads (.operators left) start ⟨.expression left, last⟩

/-! ## The rules are those of the reader -/

theorem isReserved_iff {value : Char} :
    isReserved value = true ↔
      value = '∅' ∨ value = 'ε' ∨ value = '(' ∨ value ∈ ['|', '*', '.', ')'] := by
  simp only [isReserved, reserved, List.contains_eq_mem, decide_eq_true_eq, List.mem_cons,
    List.not_mem_nil, or_false]
  grind

/-- Only an opening bracket and the characters that block an atom are no leaves. -/
theorem Regex.leaf?_eq_none {value : Char} :
    Regex.leaf? value = none ↔ value = '(' ∨ value ∈ ['|', '*', '.', ')'] := by
  unfold Regex.leaf?
  split
  · next isEmpty => simp [isEmpty]
  · next notEmpty =>
      split
      · next isEpsilon => simp [isEpsilon]
      · next notEpsilon =>
          have same := @isReserved_iff value
          simp only [notEmpty, notEpsilon, false_or] at same
          rw [← same]
          cases isReserved value <;> simp

/-- A character that stands for an expression stands for one node. -/
theorem Regex.leaf?_cases {value : Char} {regex : Regex Char}
    (leaf : Regex.leaf? value = some regex) :
    regex = .empty ∨ regex = .epsilon ∨ regex = .token value := by
  unfold Regex.leaf? at leaf
  split at leaf
  · exact .inl (Option.some.inj leaf).symm
  · split at leaf
    · exact .inr (.inl (Option.some.inj leaf).symm)
    · split at leaf
      · cases leaf
      · exact .inr (.inr (Option.some.inj leaf).symm)

/-- A character that is not reserved is a token. -/
theorem Regex.leaf?_eq_token {value : Char} (free : isReserved value = false) :
    Regex.leaf? value = some (.token value) := by
  have notReserved : ¬ isReserved value = true := by simp [free]
  rw [isReserved_iff] at notReserved
  simp only [not_or] at notReserved
  rw [Regex.leaf?, if_neg notReserved.1, if_neg notReserved.2.1, if_neg (by simp [free])]

theorem readFactor_eq_expression (start : Cursor) :
    readFactor start = readExpression (start.skip '.') := by
  rw [readFactor_eq]
  rcases start with ⟨offset, ahead⟩
  cases ahead with
  | nil => rw [readExpression_eq, readAtom_eq]; rfl
  | cons value ahead => rfl

theorem readAtom_leaf {offset : Nat} {value : Char} {ahead : List Char} {regex : Regex Char}
    (leaf : Regex.leaf? value = some regex) :
    readAtom ⟨offset, value :: ahead⟩ = ⟨.expression regex, ⟨offset + 1, ahead⟩⟩ := by
  have noGroup : value ≠ '(' := by
    intro opening
    have none := Regex.leaf?_eq_none.mpr (.inl opening)
    rw [leaf] at none
    cases none
  rw [readAtom_eq]
  simp only [Cursor.peek_cons, Cursor.advance_cons]
  unfold Regex.leaf? at leaf
  split at leaf
  · next isEmpty => cases leaf; rw [if_pos isEmpty]
  · next notEmpty =>
      rw [if_neg notEmpty]
      split at leaf
      · next isEpsilon => cases leaf; rw [if_pos isEpsilon]
      · next notEpsilon =>
          rw [if_neg notEpsilon, if_neg noGroup]
          split at leaf
          · cases leaf
          · next free => cases leaf; rw [if_neg free]

theorem readAtom_blocked {start : Cursor} (blocked : start.Blocked) :
    readAtom start = ⟨.nothing, start⟩ := by
  rw [readAtom_eq]
  split
  · rfl
  · next value next =>
      have member := blocked value next
      simp only [List.mem_cons, List.not_mem_nil, or_false] at member
      rcases member with rfl | rfl | rfl | rfl
      · rfl
      · rfl
      · rfl
      · rfl

theorem readAtom_opening (offset : Nat) (ahead : List Char) :
    readAtom ⟨offset, '(' :: ahead⟩ =
      match readExpression ⟨offset + 1, ahead⟩ with
      | ⟨.unclosed opening, after⟩ => ⟨.unclosed opening, after⟩
      | ⟨.nothing, after⟩ => ⟨.nothing, after.skip ')'⟩
      | ⟨.expression inner, after⟩ =>
          match after.eat? ')' with
          | some rest => ⟨.expression inner, rest⟩
          | none => ⟨.unclosed offset, after⟩ := by
  rw [readAtom_eq]
  rfl

/-- What is derived is what the reader answers. -/
theorem Reads.read_eq {task : Task} {start : Cursor} {reading : Reading}
    (reads : Reads task start reading) : task.read start = reading := by
  induction reads with
  | compound _ _ atomIH operatorsIH =>
      simp only [Task.read] at atomIH operatorsIH ⊢
      rw [readExpression_eq, atomIH]
      exact operatorsIH
  | @headless start reading _ none atomIH =>
      simp only [Task.read] at atomIH ⊢
      rw [readExpression_eq, atomIH]
      rcases reading with ⟨found, after⟩
      cases found with
      | expression left => exact absurd rfl (none left)
      | nothing | unclosed => rfl
  | leaf leaf => exact readAtom_leaf leaf
  | blocked blocked => exact readAtom_blocked blocked
  | group _ innerIH =>
      simp only [Task.read] at innerIH ⊢
      rw [readAtom_opening, innerIH]
      simp only [Cursor.eat?_cons_self]
  | unclosedGroup _ open' innerIH =>
      simp only [Task.read] at innerIH ⊢
      rw [readAtom_opening, innerIH]
      simp only [Cursor.eat?_eq_none.mpr open']
  | emptyGroup _ innerIH =>
      simp only [Task.read] at innerIH ⊢
      rw [readAtom_opening, innerIH]
  | brokenGroup _ innerIH =>
      simp only [Task.read] at innerIH ⊢
      rw [readAtom_opening, innerIH]
  | bar _ rightIH =>
      simp only [Task.read] at rightIH ⊢
      rw [readAlternative_eq, Cursor.eat?_cons_self]
      exact rightIH
  | noBar other =>
      simp only [Task.read]
      rw [readAlternative_eq, Cursor.eat?_eq_none.mpr other]
  | concat _ _ rightIH restIH =>
      simp only [Task.read] at rightIH restIH ⊢
      rw [readOperators_eq, readFactor_eq_expression, rightIH]
      exact restIH
  | brokenFactor _ rightIH =>
      simp only [Task.read] at rightIH ⊢
      rw [readOperators_eq, readFactor_eq_expression, rightIH]
  | union _ _ _ factorIH rightIH restIH =>
      simp only [Task.read] at factorIH rightIH restIH ⊢
      rw [readOperators_eq, readFactor_eq_expression, factorIH]
      simp only [rightIH]
      exact restIH
  | brokenAlternative _ _ factorIH rightIH =>
      simp only [Task.read] at factorIH rightIH ⊢
      rw [readOperators_eq, readFactor_eq_expression, factorIH]
      simp only [rightIH]
  | star _ _ _ factorIH alternativeIH restIH =>
      simp only [Task.read] at factorIH alternativeIH restIH ⊢
      rw [readOperators_eq, readFactor_eq_expression, factorIH]
      simp only [alternativeIH, Cursor.eat?_cons_self]
      exact restIH
  | done _ _ last factorIH alternativeIH =>
      simp only [Task.read] at factorIH alternativeIH ⊢
      rw [readOperators_eq, readFactor_eq_expression, factorIH]
      simp only [alternativeIH, Cursor.eat?_eq_none.mpr last]

/-! A reading is derived if the readings are that it was made from. -/

theorem reads_expression {start : Cursor} (atom : Reads .atom start (readAtom start))
    (operators : ∀ left after, Cursor.length after < start.length →
      Reads (.operators left) after (readOperators left after)) :
    Reads .expression start (readExpression start) := by
  have advances := readAtom_advances start
  rw [readExpression_eq]
  cases read : readAtom start with
  | mk found after =>
    rw [read] at atom advances
    cases found with
    | expression left => exact .compound atom (operators left after advances)
    | nothing => exact .headless atom nofun
    | unclosed opening => exact .headless atom nofun

theorem reads_atom {start : Cursor}
    (inner : ∀ after, Cursor.length after < start.length →
      Reads .expression after (readExpression after)) :
    Reads .atom start (readAtom start) := by
  rcases start with ⟨offset, ahead⟩
  cases ahead with
  | nil =>
      have blocked : Cursor.Blocked ⟨offset, []⟩ := by
        intro value next
        cases next
      rw [readAtom_blocked blocked]
      exact .blocked blocked
  | cons value ahead =>
      cases leaf : Regex.leaf? value with
      | some regex =>
          rw [readAtom_leaf leaf]
          exact .leaf leaf
      | none =>
          rcases Regex.leaf?_eq_none.mp leaf with rfl | stops
          · have reads := inner ⟨offset + 1, ahead⟩ (Nat.lt_succ_self ahead.length)
            rw [readAtom_opening]
            cases read : readExpression ⟨offset + 1, ahead⟩ with
            | mk found after =>
              rw [read] at reads
              cases found with
              | expression inner =>
                  cases closed : after.eat? ')' with
                  | some rest =>
                      rcases Cursor.eat?_eq_some.mp closed with ⟨closing, rest, rfl, rfl⟩
                      simp only [Cursor.eat?_cons_self]
                      exact .group reads
                  | none =>
                      simp only [closed]
                      exact .unclosedGroup reads (Cursor.eat?_eq_none.mp closed)
              | nothing => exact .emptyGroup reads
              | unclosed opening => exact .brokenGroup reads
          · have blocked : Cursor.Blocked ⟨offset, value :: ahead⟩ := by
              intro other next
              cases next
              exact stops
            rw [readAtom_blocked blocked]
            exact .blocked blocked

theorem reads_alternative {start : Cursor}
    (right : ∀ after, Cursor.length after < start.length →
      Reads .expression after (readExpression after)) :
    Reads .alternative start (readAlternative start) := by
  rw [readAlternative_eq]
  cases bar : start.eat? '|' with
  | some after =>
      have shorter := Cursor.length_eat?_lt bar
      rcases Cursor.eat?_eq_some.mp bar with ⟨offset, ahead, rfl, rfl⟩
      exact .bar (right ⟨offset + 1, ahead⟩ shorter)
  | none => exact .noBar (Cursor.eat?_eq_none.mp bar)

theorem reads_operators {left : Regex Char} {start : Cursor}
    (factor : Reads .expression (start.skip '.') (readExpression (start.skip '.')))
    (alternative : ∀ middle, Cursor.length middle ≤ start.length →
      Reads .alternative middle (readAlternative middle))
    (rest : ∀ left after, Cursor.length after < start.length →
      Reads (.operators left) after (readOperators left after)) :
    Reads (.operators left) start (readOperators left start) := by
  have factorAdvances := readFactor_advances start
  rw [readFactor_eq_expression] at factorAdvances
  rw [readOperators_eq, readFactor_eq_expression]
  cases readFactor : readExpression (start.skip '.') with
  | mk found middle =>
    rw [readFactor] at factor factorAdvances
    cases found with
    | unclosed opening => exact .brokenFactor factor
    | expression right => exact .concat factor (rest (.concat left right) middle factorAdvances)
    | nothing =>
        have kept : middle.length ≤ start.length := factorAdvances
        have alternative := alternative middle kept
        have advances := readAlternative_advances middle
        cases readRight : readAlternative middle with
        | mk found last =>
          rw [readRight] at alternative advances
          simp only [readRight]
          cases found with
          | unclosed opening => exact .brokenAlternative factor alternative
          | expression right =>
              have shorter : last.length < start.length := Nat.lt_of_lt_of_le advances kept
              exact .union factor alternative (rest (.union left right) last shorter)
          | nothing =>
              cases starred : last.eat? '*' with
              | none =>
                  simp only [starred]
                  exact .done factor alternative (Cursor.eat?_eq_none.mp starred)
              | some after =>
                  have shorter := Cursor.length_eat?_lt starred
                  rcases Cursor.eat?_eq_some.mp starred with ⟨offset, ahead, rfl, rfl⟩
                  have keptStill := Nat.le_trans advances kept
                  exact .star factor alternative
                    (rest (.star left) ⟨offset + 1, ahead⟩ (Nat.lt_of_lt_of_le shorter keptStill))

/-- What the reader answers is derived. -/
theorem reads_read (task : Task) (start : Cursor) : Reads task start (task.read start) :=
  match task with
  | .expression =>
      reads_expression (reads_read .atom start)
        fun left after _ => reads_read (.operators left) after
  | .atom => reads_atom fun after _ => reads_read .expression after
  | .alternative => reads_alternative fun after _ => reads_read .expression after
  | .operators _ =>
      reads_operators (reads_read .expression (start.skip '.'))
        (fun middle _ => reads_read .alternative middle)
        fun left after _ => reads_read (.operators left) after
termination_by 4 * start.length + task.rank
decreasing_by
  all_goals simp only [Task.rank]
  all_goals have := start.length_skip_le '.'
  all_goals omega

theorem reads_iff {task : Task} {start : Cursor} {reading : Reading} :
    Reads task start reading ↔ task.read start = reading := by
  constructor
  · exact Reads.read_eq
  · intro equal
    exact equal ▸ reads_read task start

end Residual
