import Residual.Proofs.Reading.Grammar
import Residual.Proofs.Reading.Stops

/-!
# Texts without an expression

Behind the brackets that a text begins with there is an atom, or there is none. In the second
case nothing is found: the answer comes back through all groups that were opened, and each of
them takes a closing bracket if one is next. In the first case the reader has an expression in
hand from there on, so it ends with one, or with a group that is left open.
-/

namespace Residual

/-! ## Repeated characters -/

/-- How many times a text repeats a character at its beginning. -/
def leading (value : Char) (text : List Char) : Nat := (text.takeWhile (· == value)).length

@[simp] theorem leading_nil (value : Char) : leading value [] = 0 := rfl

@[simp] theorem leading_cons_self (value : Char) (text : List Char) :
    leading value (value :: text) = leading value text + 1 := by
  simp [leading]

theorem leading_cons_of_ne {value next : Char} (other : next ≠ value) (text : List Char) :
    leading value (next :: text) = 0 := by
  simp [leading, other]

/-- Behind some of the repeated characters there is another one. -/
theorem head?_drop_of_lt_leading {value : Char} {text : List Char} {number : Nat}
    (within : number < leading value text) : (text.drop number).head? = some value := by
  induction text generalizing number with
  | nil => cases within
  | cons next text ih =>
      by_cases same : next = value
      · subst same
        cases number with
        | zero => rfl
        | succ number =>
            rw [leading_cons_self] at within
            exact ih (Nat.lt_of_succ_lt_succ within)
      · rw [leading_cons_of_ne same] at within
        cases within

/-- Behind all of them there is none. -/
theorem head?_drop_leading_ne (value : Char) (text : List Char) :
    (text.drop (leading value text)).head? ≠ some value := by
  induction text with
  | nil => nofun
  | cons next text ih =>
      by_cases same : next = value
      · subst same
        rw [leading_cons_self]
        exact ih
      · rw [leading_cons_of_ne same]
        intro found
        exact same (Option.some.inj found)

/-- One group more takes one closing bracket more, as long as there are any. -/
theorem Cursor.skip_closing (place groups : Nat) (text : List Char) :
    Cursor.skip ⟨place + min groups (leading ')' text), text.drop (min groups (leading ')' text))⟩
        ')' =
      ⟨place + min (groups + 1) (leading ')' text),
        text.drop (min (groups + 1) (leading ')' text))⟩ := by
  by_cases more : groups < leading ')' text
  · have next := head?_drop_of_lt_leading more
    rw [Nat.min_eq_left (Nat.le_of_lt more), Nat.min_eq_left more]
    rw [List.head?_drop, List.getElem?_eq_some_iff] at next
    rcases next with ⟨inside, found⟩
    rw [List.drop_eq_getElem_cons inside, found, Cursor.skip_cons_self, Nat.add_assoc]
  · have all := Nat.le_of_not_lt more
    rw [Nat.min_eq_right all, Nat.min_eq_right (Nat.le_succ_of_le all)]
    exact Cursor.skip_of_peek_ne (head?_drop_leading_ne ')' text)

/-! ## The brackets that a text begins with -/

-- The next character decides; a search through all characters would find an instance too.
instance (cursor : Cursor) : Decidable cursor.Blocked :=
  match found : cursor.peek with
  | none => .isTrue fun _ next => nomatch found.symm.trans next
  | some value => decidable_of_iff (value ∈ ['|', '*', '.', ')'])
      ⟨fun member _ next => Option.some.inj (found.symm.trans next) ▸ member,
        fun blocked => blocked value found⟩

/-- No atom begins behind the opening brackets at the beginning. -/
def BlockedBehindBrackets (text : List Char) : Prop :=
  Cursor.Blocked (.startingAt text (leading '(' text))

theorem blockedBehindBrackets_nil : BlockedBehindBrackets [] := Cursor.blocked_nil 0

theorem blockedBehindBrackets_cons (ahead : List Char) :
    BlockedBehindBrackets ('(' :: ahead) ↔ BlockedBehindBrackets ahead := by
  simp only [BlockedBehindBrackets, Cursor.Blocked, Cursor.peek, Cursor.startingAt,
    leading_cons_self, List.drop_succ_cons]

theorem blockedBehindBrackets_of_ne {value : Char} (other : value ≠ '(') (ahead : List Char) :
    BlockedBehindBrackets (value :: ahead) ↔ Cursor.Blocked ⟨0, value :: ahead⟩ := by
  rw [BlockedBehindBrackets, leading_cons_of_ne other, Cursor.startingAt, List.drop_zero]

/-- Nothing is found then, and every group takes a closing bracket as long as these last. -/
theorem BlockedBehindBrackets.reads {ahead : List Char} (blocked : BlockedBehindBrackets ahead)
    (offset : Nat) :
    let opened := leading '(' ahead
    let behind := ahead.drop opened
    let closed := min opened (leading ')' behind)
    Reads .expression ⟨offset, ahead⟩
      ⟨.nothing, ⟨offset + opened + closed, behind.drop closed⟩⟩ := by
  intro opened behind closed
  induction ahead generalizing offset with
  | nil => exact .headless (.blocked (Cursor.blocked_nil offset)) nofun
  | cons value ahead ih =>
      by_cases bracket : value = '('
      · subst bracket
        have inner := ih ((blockedBehindBrackets_cons ahead).mp blocked) (offset + 1)
        have group := Reads.emptyGroup inner
        rw [Cursor.skip_closing, Nat.add_assoc offset, Nat.add_comm 1] at group
        rw [← leading_cons_self] at group
        exact .headless group nofun
      · have start : Cursor.Blocked ⟨offset, value :: ahead⟩ :=
          (blockedBehindBrackets_of_ne bracket ahead).mp blocked
        have none : leading '(' (value :: ahead) = 0 := leading_cons_of_ne bracket ahead
        simp only [opened, behind, closed, none, Nat.zero_min, List.drop_zero, Nat.add_zero]
        exact .headless (.blocked start) nofun

/-- Otherwise something is found. -/
theorem Reads.blockedBehindBrackets {offset : Nat} {ahead : List Char} {reading : Reading}
    (reads : Reads .expression ⟨offset, ahead⟩ reading) (nothing : reading.found = .nothing) :
    BlockedBehindBrackets ahead := by
  rcases reading with ⟨found, after⟩
  subst nothing
  induction ahead generalizing offset after with
  | nil => exact blockedBehindBrackets_nil
  | cons value ahead ih =>
      rcases reads.nothing_cases with ⟨blocked, _⟩ | ⟨_, _, inner, opened, content, _⟩
      · have other : value ≠ '(' := by
          intro bracket
          subst bracket
          exact absurd (blocked '(' rfl) (by decide)
        exact (blockedBehindBrackets_of_ne other ahead).mpr blocked
      · cases opened
        exact (blockedBehindBrackets_cons ahead).mpr (ih inner content)

/-! ## The answer for a text -/

/-- A text is without an expression exactly if no atom begins behind the brackets that it begins
with. The offset that is reported lies behind these and behind the closing brackets that follow
them, of which each group takes at most one. Every other text has an expression or a group that
is left open. -/
theorem no_expression_iff_blocked (text : String) :
    let opened := leading '(' text.toList
    let behind := Cursor.startingAt text.toList opened
    let closed := leading ')' behind.ahead
    (∀ offset, (Regex.parse text).value = .error (.noExpression offset) ↔
        behind.Blocked ∧ offset = opened + min opened closed) ∧
      (¬ behind.Blocked →
        (∃ regex, (Regex.parse text).value = .ok regex) ∨
          ∃ opening, (Regex.parse text).value = .error (.unterminatedGroup opening)) := by
  intro opened behind closed
  rw [Regex.value_parse]
  have blocked_iff : behind.Blocked ↔ (readExpression (.ofString text)).found = .nothing := by
    constructor
    · intro blocked
      exact congrArg Reading.found (BlockedBehindBrackets.reads blocked 0).read_eq
    · intro nothing
      have reads : Reads .expression ⟨0, text.toList⟩ (readExpression (.ofString text)) :=
        reads_read .expression (.ofString text)
      exact reads.blockedBehindBrackets nothing
  have place : behind.Blocked →
      (readExpression (.ofString text)).after.offset = opened + min opened closed := by
    intro blocked
    have read := (BlockedBehindBrackets.reads blocked 0).read_eq
    rw [Nat.zero_add] at read
    exact congrArg (fun reading => reading.after.offset) read
  constructor
  · intro offset
    rw [Reading.result_eq_noExpression, ← blocked_iff]
    constructor
    · rintro ⟨blocked, same⟩
      exact ⟨blocked, same.symm.trans (place blocked)⟩
    · rintro ⟨blocked, same⟩
      exact ⟨blocked, (place blocked).trans same.symm⟩
  · intro free
    exact Reading.result_cases (fun nothing => free (blocked_iff.mpr nothing))

/-- Three groups, of which two are closed in front of a bar; two groups, and more closing brackets
than those need; and two groups around a letter, of which the first one is left open. -/
theorem no_expression_of_idle_brackets :
    (Regex.parse "((())|a)").value = .error (.noExpression 5) ∧
      (Regex.parse "(())))*").value = .error (.noExpression 4) ∧
      ((∃ regex, (Regex.parse "((a)").value = .ok regex) ∨
        ∃ opening, (Regex.parse "((a)").value = .error (.unterminatedGroup opening)) := by
  refine ⟨?_, ?_, ?_⟩
  · exact ((no_expression_iff_blocked "((())|a)").1 5).mpr (by decide)
  · exact ((no_expression_iff_blocked "(())))*").1 4).mpr (by decide)
  · exact (no_expression_iff_blocked "((a)").2 (by decide)

end Residual
