import Residual.Proofs.Regex.Emptiness
import Residual.Transition.Matcher

/-!
# Runs of a matcher

A matcher is used through three calls, in any order. Two of them read all they are given;
the third stops at the first token behind which nothing can be accepted any more. So what
a matcher has read is known only when the tokens taken are counted, and not those offered.
Counted that way, a run of calls does the same as reading its history token by token: the
matcher stands at the residual by its history, and the acceptance it keeps and its being
dead are facts about the language. A host that is given the same history reports the same.
-/

namespace Residual

universe u

variable {α : Type u}

/-- A call on a matcher. -/
inductive Call (α : Type u) where
  | accept (token : α)
  | acceptAll (word : List α)
  | accepts (word : List α)
  deriving DecidableEq, Repr

namespace Matcher

/-- The matcher that has still to match an expression. -/
def expecting (relation : Relation α) (regex : Regex α) : Matcher α :=
  ⟨relation, ⟨regex⟩, regex.nullable⟩

theorem new_eq_expecting (relation : Relation α) :
    new relation = expecting relation relation.expression := rfl

variable [DecidableEq α]

/-! ## Reading a word -/

@[simp] theorem value_acceptAll_nil (matcher : Matcher α) :
    (matcher.acceptAll []).value = matcher := rfl

@[simp] theorem value_acceptAll_cons (matcher : Matcher α) (token : α) (word : List α) :
    (matcher.acceptAll (token :: word)).value =
      ((matcher.accept token).value.acceptAll word).value := rfl

theorem value_acceptAll_append (matcher : Matcher α) (first second : List α) :
    (matcher.acceptAll (first ++ second)).value =
      ((matcher.acceptAll first).value.acceptAll second).value := by
  simp only [acceptAll, Logged.value_follow, List.foldl_append]

theorem value_accept_expecting (relation : Relation α) (regex : Regex α) (token : α) :
    ((expecting relation regex).accept token).value =
      expecting relation (regex.derive token) := rfl

/-- Reading a word leaves the residual by that word to be matched. -/
theorem value_acceptAll_expecting (relation : Relation α) (regex : Regex α) (word : List α) :
    ((expecting relation regex).acceptAll word).value =
      expecting relation (regex.residual word) := by
  induction word generalizing regex with
  | nil => rfl
  | cons token word ih =>
      rw [value_acceptAll_cons, value_accept_expecting, ih, Regex.residual_cons]

/-! ## Stopping early -/

@[simp] theorem value_accepts_nil (matcher : Matcher α) :
    (matcher.accepts []).value = ⟨matcher.accepting, matcher, []⟩ := rfl

theorem value_accepts_cons_dead {matcher : Matcher α} {token : α} (word : List α)
    (dead : (matcher.accept token).value.dead = true) :
    (matcher.accepts (token :: word)).value =
      ⟨false, (matcher.accept token).value, word⟩ := by
  rw [accepts, Logged.value_andThen, if_pos dead, Logged.value_silent]

theorem value_accepts_cons_alive {matcher : Matcher α} {token : α} (word : List α)
    (alive : ¬ (matcher.accept token).value.dead = true) :
    (matcher.accepts (token :: word)).value =
      ((matcher.accept token).value.accepts word).value := by
  rw [accepts, Logged.value_andThen, if_neg alive]

/-- Whether a matcher that reads a word, and at least one token, is dead behind it. -/
def DeadAfter (matcher : Matcher α) (word : List α) : Prop :=
  word ≠ [] ∧ (matcher.acceptAll word).value.dead = true

theorem deadAfter_cons {matcher : Matcher α} {token : α} {word : List α}
    (after : (matcher.accept token).value.DeadAfter word) :
    matcher.DeadAfter (token :: word) :=
  ⟨List.cons_ne_nil token word, after.2⟩

/-- If the first token does not end it, a matcher is dead behind a prefix exactly when it
is so after that token and the rest of the prefix. -/
theorem exists_of_deadAfter {matcher : Matcher α} {token : α} {word other : List α}
    (alive : ¬ (matcher.accept token).value.dead = true) (start : other <+: token :: word)
    (after : matcher.DeadAfter other) :
    ∃ rest, other = token :: rest ∧ rest <+: word ∧
      (matcher.accept token).value.DeadAfter rest := by
  cases other with
  | nil => exact absurd rfl after.1
  | cons head rest =>
      rcases List.cons_prefix_cons.mp start with ⟨same, shorter⟩
      subst same
      refine ⟨rest, rfl, shorter, ?_, after.2⟩
      intro nothing
      subst nothing
      exact alive after.2

/-- What has to be taken of a word: the shortest prefix that is not empty and behind which
the matcher is dead, or the whole word if there is none. -/
def Suffices (matcher : Matcher α) (word taken : List α) : Prop :=
  (matcher.DeadAfter taken ∧
    ∀ other, other <+: word → matcher.DeadAfter other → taken <+: other) ∨
  (taken = word ∧ ∀ other, other <+: word → ¬ matcher.DeadAfter other)

/-- A token that does not end it belongs to what suffices. -/
theorem Suffices.cons {matcher : Matcher α} {token : α} {word taken : List α}
    (alive : ¬ (matcher.accept token).value.dead = true)
    (enough : (matcher.accept token).value.Suffices word taken) :
    matcher.Suffices (token :: word) (token :: taken) := by
  rcases enough with ⟨after, shortest⟩ | ⟨whole, never⟩
  · refine .inl ⟨deadAfter_cons after, ?_⟩
    intro other start dead
    rcases exists_of_deadAfter alive start dead with ⟨rest, same, shorter, later⟩
    rw [same]
    exact List.cons_prefix_cons.mpr ⟨rfl, shortest rest shorter later⟩
  · refine .inr ⟨congrArg (token :: ·) whole, ?_⟩
    intro other start dead
    rcases exists_of_deadAfter alive start dead with ⟨rest, _, shorter, later⟩
    exact never rest shorter later

/-- No more and no less than what suffices is taken of a word. -/
theorem exists_taken (matcher : Matcher α) (word : List α) :
    ∃ taken, taken ++ (matcher.accepts word).value.unread = word ∧
      (matcher.accepts word).value.matcher = (matcher.acceptAll taken).value ∧
      matcher.Suffices word taken := by
  induction word generalizing matcher with
  | nil =>
      refine ⟨[], rfl, rfl, .inr ⟨rfl, ?_⟩⟩
      intro other start dead
      exact dead.1 (List.prefix_nil.mp start)
  | cons token word ih =>
      by_cases dead : (matcher.accept token).value.dead = true
      · refine ⟨[token], ?_, ?_, .inl ⟨⟨List.cons_ne_nil token [], dead⟩, ?_⟩⟩
        · rw [value_accepts_cons_dead word dead]
          rfl
        · rw [value_accepts_cons_dead word dead]
          rfl
        · intro other start after
          cases other with
          | nil => exact absurd rfl after.1
          | cons head rest =>
              rw [(List.cons_prefix_cons.mp start).1]
              exact List.cons_prefix_cons.mpr ⟨rfl, List.nil_prefix⟩
      · rcases ih (matcher.accept token).value with ⟨taken, whole, same, enough⟩
        refine ⟨token :: taken, ?_, ?_, enough.cons dead⟩
        · rw [value_accepts_cons_alive word dead, List.cons_append, whole]
        · rw [value_accepts_cons_alive word dead, same, value_acceptAll_cons]

/-! ## Calls in any order -/

/-- The matcher after a call. -/
def perform (matcher : Matcher α) : Call α → Matcher α
  | .accept token => (matcher.accept token).value
  | .acceptAll word => (matcher.acceptAll word).value
  | .accepts word => (matcher.accepts word).value.matcher

/-- The matcher after several calls. -/
def performAll (matcher : Matcher α) (calls : List (Call α)) : Matcher α :=
  calls.foldl perform matcher

/-- The tokens that a matcher takes in a call. -/
def taken (matcher : Matcher α) : Call α → List α
  | .accept token => [token]
  | .acceptAll word => word
  | .accepts word => word.take (word.length - (matcher.accepts word).value.unread.length)

/-- All tokens that a matcher takes in a run of calls, the earliest first. -/
def history (matcher : Matcher α) : List (Call α) → List α
  | [] => []
  | call :: calls => matcher.taken call ++ (matcher.perform call).history calls

/-- What is taken of a word and what is left unread are the whole word. -/
theorem taken_append_unread (matcher : Matcher α) (word : List α) :
    matcher.taken (.accepts word) ++ (matcher.accepts word).value.unread = word := by
  rcases matcher.exists_taken word with ⟨read, whole, _, _⟩
  have length : word.length - (matcher.accepts word).value.unread.length = read.length := by
    rw [← whole, List.length_append, whole]
    exact Nat.add_sub_cancel ..
  have start : read = word.take read.length := List.prefix_iff_eq_take.mp ⟨_, whole⟩
  rw [taken, length, ← start, whole]

/-- A call does the same as reading what it takes. -/
theorem perform_eq (matcher : Matcher α) (call : Call α) :
    matcher.perform call = (matcher.acceptAll (matcher.taken call)).value := by
  cases call with
  | accept token => rfl
  | acceptAll word => rfl
  | accepts word =>
      rcases matcher.exists_taken word with ⟨read, whole, same, _⟩
      have equal : matcher.taken (.accepts word) = read :=
        List.append_cancel_right ((matcher.taken_append_unread word).trans whole.symm)
      rw [equal]
      exact same

/-- A run of calls does the same as reading its history. -/
theorem performAll_eq (matcher : Matcher α) (calls : List (Call α)) :
    matcher.performAll calls = (matcher.acceptAll (matcher.history calls)).value := by
  induction calls generalizing matcher with
  | nil => rfl
  | cons call calls ih =>
      rw [history, value_acceptAll_append, ← perform_eq, ← ih]
      rfl

/-! ## Hosts -/

/-- A host reports for each token whether the residual behind it is nullable. -/
theorem value_runFrom_system (relation : Relation α) (current : Configuration α)
    (word : List α) :
    (relation.system.runFrom current word).value =
      (List.range word.length).map fun index =>
        (current.expression.residual (word.take (index + 1))).nullable := by
  induction word generalizing current with
  | nil => rfl
  | cons token word ih =>
      have first : (relation.system.runFrom current (token :: word)).value =
          (current.expression.derive token).nullable ::
            (relation.system.runFrom ⟨current.expression.derive token⟩ word).value := rfl
      rw [first, ih, List.length_cons, List.range_succ_eq_map, List.map_cons, List.map_map]
      rfl

/-- After any calls, a matcher stands at the residual by the tokens it has taken, it is
accepting exactly when they are a word of the expression, and it is dead exactly when no
word begins with them. A host that is fed the same tokens reports for each of them whether
those up to it are a word. -/
theorem history_decides (relation : Relation α) (calls : List (Call α)) :
    let matcher := (new relation).performAll calls
    let history := (new relation).history calls
    let outputs := (relation.system.run history).value
    matcher.configuration = ⟨relation.expression.residual history⟩ ∧
    (matcher.accepting = true ↔ history ∈ relation.expression.language) ∧
    (matcher.dead = true ↔ ∀ later, history ++ later ∉ relation.expression.language) ∧
    outputs.length = history.length ∧
    ∀ index < history.length,
      (outputs[index]? = some true ↔
        history.take (index + 1) ∈ relation.expression.language) := by
  intro matcher history outputs
  have reached : matcher = expecting relation (relation.expression.residual history) := by
    rw [← value_acceptAll_expecting, ← new_eq_expecting]
    exact performAll_eq (new relation) calls
  have reported : outputs = (List.range history.length).map fun index =>
      (relation.expression.residual (history.take (index + 1))).nullable :=
    value_runFrom_system relation relation.start history
  refine ⟨?_, ?_, ?_, ?_, ?_⟩
  · rw [reached]
    rfl
  · rw [reached, Regex.mem_language]
    exact Regex.nullable_residual_iff
  · rw [reached]
    exact Regex.matchesNothing_residual_iff
  · rw [reported, List.length_map, List.length_range]
  · intro index inside
    rw [reported, List.getElem?_map, List.getElem?_range inside, Option.map_some,
      Option.some.injEq, Regex.mem_language]
    exact Regex.nullable_residual_iff

end Matcher

end Residual
