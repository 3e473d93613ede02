import Residual.Queue
import Residual.Regex.Alphabet
import Residual.StateSpace.Table
import Residual.Transition.Relation

/-!
# Exploring a relation breadth first

Derivatives are not simplified, so a relation usually has no end of configurations. An
exploration discovers them in the order of a queue, each configuration once, and stops at
two limits: a state at the greatest depth is not expanded, and once the greatest number
of states is known no further one is added. A state that a limit kept from being followed
completely is marked as truncated; transitions to states already known are listed even
then.

The search ends because every step takes a state out of the queue, and a state enters the
queue only by using up room among the states.
-/

namespace Residual

universe u

/-- How far an exploration goes, and by which tokens. -/
structure Scope (α : Type u) where
  /-- States at this depth are not expanded. -/
  maxDepth : Nat := 8
  /-- No state is added when so many are known. -/
  maxStates : Nat := 1024
  /-- The tokens to derive by, in order and with repetitions; without them, the tokens of
  the expression in the order in which they first occur. -/
  alphabet : Option (List α) := none
  deriving Repr

/-- Where a search stands: the states and transitions found, and the numbers of the
states that have not been expanded. -/
structure Search (α : Type u) [DecidableEq α] [Hashable α] where
  table : StateTable α
  transitions : Array (Transition α)
  pending : Queue Nat
  pending_lt : ∀ number ∈ pending.toList, number < table.size

namespace Search

variable {α : Type u} [DecidableEq α] [Hashable α]

/-- A search that knows one configuration and has still to expand it. -/
def start (configuration : Configuration α) : Search α where
  table := StateTable.empty.add ⟨configuration, configuration.accepting, 0, false⟩ (by simp)
  transitions := #[]
  pending := Queue.empty.enqueue 0
  pending_lt := by simp

/-- Marks a state as truncated. -/
def truncate (search : Search α) (number : Nat) : Search α :=
  { search with
    table := search.table.truncate number
    pending_lt := by simpa using search.pending_lt }

/-- Takes in the outcome of a derivation from the state `source`. A configuration that is
known gives a transition; one that is new becomes a state at `depth` first, or, for want
of room, truncates the source. -/
def record (maxStates : Nat) (search : Search α) (source depth : Nat) (token : α)
    (outcome : Outcome Bool (Configuration α)) : Search α :=
  match absent : search.table.find? outcome.target with
  | some target =>
      { search with
        transitions := search.transitions.push ⟨source, token, target, outcome.output⟩ }
  | none =>
      let target := search.table.size
      if target < maxStates then
        { table := search.table.add ⟨outcome.target, outcome.target.accepting, depth, false⟩ absent
          transitions := search.transitions.push ⟨source, token, target, outcome.output⟩
          pending := search.pending.enqueue target
          pending_lt := by
            intro number member
            rw [Queue.toList_enqueue, List.mem_append, List.mem_singleton] at member
            rw [StateTable.size_add]
            rcases member with old | rfl
            · exact Nat.lt_succ_of_lt (search.pending_lt number old)
            · exact Nat.lt_succ_self _ }
      else search.truncate source

/-- Derives a state by every token of the alphabet, unless it is too deep. -/
def expand (relation : Relation α) (scope : Scope α) (alphabet : List α) (search : Search α)
    (number : Nat) (inside : number < search.table.size) : Logged (Search α) :=
  let state := search.table.states[number]
  if scope.maxDepth ≤ state.depth then .silent (search.truncate number)
  else
    Logged.follow
      (fun current token =>
        (relation.derive token state.configuration).map
          (current.record scope.maxStates number (state.depth + 1) token))
      search alphabet

/-- An upper bound for the number of states that are still to be expanded. -/
def remaining (maxStates : Nat) (search : Search α) : Nat :=
  maxStates - search.table.size + search.pending.toList.length

@[simp] theorem remaining_truncate (maxStates : Nat) (search : Search α) (number : Nat) :
    (search.truncate number).remaining maxStates = search.remaining maxStates := by
  simp [truncate, remaining]

theorem remaining_record (maxStates : Nat) (search : Search α) (source depth : Nat) (token : α)
    (outcome : Outcome Bool (Configuration α)) :
    (search.record maxStates source depth token outcome).remaining maxStates =
      search.remaining maxStates := by
  unfold record
  split
  · rfl
  · simp only
    split
    · next room =>
        simp only [remaining, StateTable.size_add, Queue.toList_enqueue, List.length_append,
          List.length_singleton]
        omega
    · simp

/-- Steps that keep the bound keep it together. -/
theorem remaining_foldl (maxStates : Nat) {step : Search α → α → Search α}
    (kept : ∀ search token, (step search token).remaining maxStates = search.remaining maxStates)
    (search : Search α) (word : List α) :
    (word.foldl step search).remaining maxStates = search.remaining maxStates := by
  induction word generalizing search with
  | nil => rfl
  | cons token word next => rw [List.foldl_cons, next, kept]

theorem remaining_expand (relation : Relation α) (scope : Scope α) (alphabet : List α)
    (search : Search α) (number : Nat) (inside : number < search.table.size) :
    (search.expand relation scope alphabet number inside).value.remaining scope.maxStates =
      search.remaining scope.maxStates := by
  unfold expand
  simp only
  split
  · simp
  · rw [Logged.value_follow]
    exact remaining_foldl scope.maxStates (fun current token => remaining_record ..) search alphabet

/-- Expands pending states, the oldest first, until there are none. -/
def run (relation : Relation α) (scope : Scope α) (alphabet : List α) (search : Search α) :
    Logged (Search α) :=
  match taken : search.pending.dequeue? with
  | none => .silent search
  | some (number, rest) =>
      have split := Queue.toList_of_dequeue? taken
      let popped : Search α :=
        { search with
          pending := rest
          pending_lt := fun other member =>
            search.pending_lt other (split ▸ List.mem_cons_of_mem number member) }
      let expanded := popped.expand relation scope alphabet number
        (search.pending_lt number (split ▸ List.mem_cons_self))
      let earlier := expanded.record
      let finished := expanded.value.run relation scope alphabet
      let later := finished.record
      ⟨finished.value, ⟨fun _ => earlier.get ++ later.get⟩⟩
termination_by search.remaining scope.maxStates
decreasing_by
  rw [remaining_expand]
  simp only [remaining, split, List.length_cons]
  omega

/-- What a search has found. -/
def space (search : Search α) : StateSpace α :=
  ⟨search.table.states, search.transitions, 0⟩

end Search

namespace Relation

variable {α : Type u} [DecidableEq α] [Hashable α]

/-- The tokens that an exploration derives by. -/
def explorationAlphabet (relation : Relation α) (scope : Scope α) : List α :=
  scope.alphabet.getD relation.expression.firstOccurrences

/-- Discovers the configurations that can be reached within the limits. The state before
the first token is listed even if there is no room for any, but is not expanded then. -/
def explore (relation : Relation α) (scope : Scope α) : Logged (StateSpace α) :=
  let found : Logged (StateSpace α) :=
    if scope.maxStates = 0 then
      .silent ⟨#[⟨relation.start, relation.start.accepting, 0, true⟩], #[], 0⟩
    else
      ((Search.start relation.start).run relation scope
        (relation.explorationAlphabet scope)).map Search.space
  found.andThen fun space =>
    .reporting
      (fun _ => [.explored relation.name space.states.size space.transitions.size]) space

end Relation

end Residual
