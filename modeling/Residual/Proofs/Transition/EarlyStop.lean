import Residual.Proofs.Transition.Calls

/-!
# Stopping early

A matcher that stops at a dead end stands somewhere else than one that has read the whole
word, and its tree is smaller. The difference cannot be observed: behind a dead end both
are lost, a lost matcher stays lost whatever it is asked to do, and lost matchers give the
same answers. A matcher that does not stop early has read the whole word itself.
-/

namespace Residual.Matcher

universe u

variable {α : Type u}

/-- A matcher that does not accept and never will. -/
structure Lost (matcher : Matcher α) : Prop where
  dead : matcher.dead = true
  rejects : matcher.accepting = false

/-- Two matchers that give the same answers, because they are the same or both are lost. -/
def Indistinct (first second : Matcher α) : Prop :=
  first = second ∨ (first.Lost ∧ second.Lost)

namespace Indistinct

variable {first second : Matcher α}

theorem dead_eq (same : first.Indistinct second) : first.dead = second.dead := by
  rcases same with equal | ⟨firstLost, secondLost⟩
  · rw [equal]
  · rw [firstLost.dead, secondLost.dead]

theorem accepting_eq (same : first.Indistinct second) :
    first.accepting = second.accepting := by
  rcases same with equal | ⟨firstLost, secondLost⟩
  · rw [equal]
  · rw [firstLost.rejects, secondLost.rejects]

end Indistinct

variable [DecidableEq α] {matcher first second : Matcher α}

/-- The acceptance that a matcher keeps is that of the last derivation, so a matcher that
comes to a dead end by a token is lost. -/
theorem lost_accept {token : α} (dead : (matcher.accept token).value.dead = true) :
    (matcher.accept token).value.Lost where
  dead := dead
  rejects := Regex.nullable_eq_false_of_matchesNothing dead

theorem Lost.accept (lost : matcher.Lost) (token : α) : (matcher.accept token).value.Lost :=
  lost_accept (Regex.matchesNothing_derive lost.dead token)

theorem Lost.acceptAll (lost : matcher.Lost) (word : List α) :
    (matcher.acceptAll word).value.Lost := by
  induction word generalizing matcher with
  | nil => exact lost
  | cons token word ih =>
      rw [value_acceptAll_cons]
      exact ih (lost.accept token)

theorem Lost.performAll (lost : matcher.Lost) (calls : List (Call α)) :
    (matcher.performAll calls).Lost := by
  rw [performAll_eq]
  exact lost.acceptAll (matcher.history calls)

/-- A lost matcher accepts no word, not even the empty one. -/
theorem Lost.accepted_eq (lost : matcher.Lost) (word : List α) :
    (matcher.accepts word).value.accepted = false := by
  cases word with
  | nil => exact lost.rejects
  | cons token word => rw [value_accepts_cons_dead word (lost.accept token).dead]

theorem Indistinct.performAll (same : first.Indistinct second) (calls : List (Call α)) :
    (first.performAll calls).Indistinct (second.performAll calls) := by
  rcases same with equal | ⟨firstLost, secondLost⟩
  · exact .inl (congrArg (·.performAll calls) equal)
  · exact .inr ⟨firstLost.performAll calls, secondLost.performAll calls⟩

theorem Indistinct.accepted_eq (same : first.Indistinct second) (word : List α) :
    (first.accepts word).value.accepted = (second.accepts word).value.accepted := by
  rcases same with equal | ⟨firstLost, secondLost⟩
  · rw [equal]
  · rw [firstLost.accepted_eq, secondLost.accepted_eq]

/-- Asking whether a word is accepted gives the acceptance behind the whole word, and
leaves a matcher that cannot be told from one that has read it. -/
theorem accepts_acceptAll (matcher : Matcher α) (word : List α) :
    (matcher.accepts word).value.accepted = (matcher.acceptAll word).value.accepting ∧
      (matcher.accepts word).value.matcher.Indistinct (matcher.acceptAll word).value := by
  induction word generalizing matcher with
  | nil => exact ⟨rfl, .inl rfl⟩
  | cons token word ih =>
      rw [value_acceptAll_cons]
      by_cases dead : (matcher.accept token).value.dead = true
      · have stopped := lost_accept dead
        have gone := stopped.acceptAll word
        rw [value_accepts_cons_dead word dead]
        exact ⟨gone.rejects.symm, .inr ⟨stopped, gone⟩⟩
      · rw [value_accepts_cons_alive word dead]
        exact ih (matcher.accept token).value

/-- In whatever state a matcher is, asking whether a word is accepted has the same answer
as reading the whole word first. Exactly what suffices is taken of the word. Afterwards the
matcher cannot be told from one that has read the whole word: after any further calls on
both, they agree on their acceptance, on being dead, and on which words they accept. -/
theorem early_stop_unobservable (matcher : Matcher α) (word : List α) :
    let verdict := (matcher.accepts word).value
    let complete := (matcher.acceptAll word).value
    verdict.accepted = complete.accepting ∧
    (∃ taken, taken ++ verdict.unread = word ∧
      verdict.matcher = (matcher.acceptAll taken).value ∧ matcher.Suffices word taken) ∧
    ∀ calls : List (Call α),
      (verdict.matcher.performAll calls).accepting = (complete.performAll calls).accepting ∧
      (verdict.matcher.performAll calls).dead = (complete.performAll calls).dead ∧
      ∀ later, ((verdict.matcher.performAll calls).accepts later).value.accepted =
        ((complete.performAll calls).accepts later).value.accepted := by
  intro verdict complete
  rcases accepts_acceptAll matcher word with ⟨answer, same⟩
  refine ⟨answer, matcher.exists_taken word, ?_⟩
  intro calls
  have still := same.performAll calls
  exact ⟨still.accepting_eq, still.dead_eq, still.accepted_eq⟩

end Residual.Matcher
