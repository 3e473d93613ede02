import Residual.Proofs.StateSpace.Trace

/-!
# What an exploration returns

A finished search has visited every state it has listed, so what it returns can be read off
the returned list of states alone: which derivatives are transitions, and which states are
truncated because they are too deep or because a derivative of theirs is not listed.
-/

namespace Residual

universe u

variable {α : Type u} [DecidableEq α] [Hashable α]

namespace Search

/-- A search that has followed the survey of an exploration to its end. -/
def Finished (relation : Relation α) (scope : Scope α) (search : Search α) : Prop :=
  search.Traces (relation.survey scope) search.table.size
    ((relation.survey scope).itinerary search.table.size)

/-- The run of an exploration finishes. -/
theorem finished_run (relation : Relation α) (scope : Scope α) :
    ((start relation.start).run relation scope
      (relation.explorationAlphabet scope)).value.Finished relation scope :=
  Traces.run (traces_start (relation.survey scope))

variable {relation : Relation α} {scope : Scope α} {search : Search α}

/-- The discoveries of a finished search are those of the survey. -/
theorem Finished.discoveries_eq (finished : search.Finished relation scope) :
    search.table.discoveries = (relation.survey scope).found search.table.size :=
  finished.discoveries

/-- They can be computed by following the survey to any number behind its end. -/
theorem Finished.discoveries_eq_of_ended (finished : search.Finished relation scope)
    {number : Nat} (ended : ((relation.survey scope).found number).length ≤ number) :
    search.table.discoveries = (relation.survey scope).found number := by
  have length : ((relation.survey scope).found search.table.size).length =
      search.table.size := by
    rw [← finished.discoveries_eq, StateTable.length_discoveries]
  rw [finished.discoveries_eq, Survey.found_eq_found (Nat.le_of_eq length) ended]

/-- A listed state stands at the discovery of its number. -/
theorem discoveries_of_states {number : Nat} {state : ExploredState α}
    (listed : search.table.toList[number]? = some state) :
    search.table.discoveries[number]? = some state.discovery := by
  rw [StateTable.discoveries, List.getElem?_map, listed]
  rfl

theorem states_space (search : Search α) (number : Nat) :
    search.space.states[number]? = search.table.toList[number]? :=
  Array.getElem?_toList.symm

/-- The first state is where the relation starts. -/
theorem Finished.initial (finished : search.Finished relation scope) :
    ∃ state, search.table.toList[0]? = some state ∧ state.discovery = ⟨relation.start, 0⟩ := by
  have first : [⟨relation.start, 0⟩] <+: search.table.discoveries := by
    rw [finished.discoveries_eq]
    exact Discovery.prefix_enlistAll scope.maxStates [⟨relation.start, 0⟩] _
  rw [StateTable.discoveries] at first
  cases listed : search.table.toList with
  | nil =>
      rw [listed] at first
      exact absurd first.length_le (by simp)
  | cons state later =>
      rw [listed, List.map_cons, List.cons_prefix_cons] at first
      exact ⟨state, rfl, first.1.symm⟩

/-- The visits that were made are those to the listed states. -/
theorem Finished.mem_itinerary (finished : search.Finished relation scope) {visit : Visit α} :
    visit ∈ (relation.survey scope).itinerary search.table.size ↔
      ∃ origin, search.table.toList[visit.source]? = some origin ∧
        visit ∈ (relation.survey scope).visitsAt visit.source origin.discovery := by
  rw [Survey.mem_itinerary, ← finished.discoveries_eq]
  constructor
  · intro made
    rcases made with ⟨_, discovery, found, member⟩
    rw [StateTable.discoveries, List.getElem?_map, Option.map_eq_some_iff] at found
    rcases found with ⟨origin, listed, stands⟩
    exact ⟨origin, listed, stands ▸ member⟩
  · intro made
    rcases made with ⟨origin, listed, member⟩
    have inside := (List.getElem?_eq_some_iff.mp listed).1
    exact ⟨inside, origin.discovery, discoveries_of_states listed, member⟩

/-- A state is truncated if it is too deep or some token leads to no listed state. -/
theorem Finished.truncated_iff (finished : search.Finished relation scope) {number : Nat}
    {state : ExploredState α} (listed : search.table.toList[number]? = some state) :
    state.truncated = true ↔
      scope.maxDepth ≤ state.depth ∨ ∃ token ∈ relation.explorationAlphabet scope,
        (state.discovery.after token).configuration ∉ search.table.configurations := by
  rw [(finished.states number state listed).2]
  constructor
  · intro cut
    rcases cut with ⟨visit, made, source, missed⟩
    rcases finished.mem_itinerary.mp made with ⟨origin, found, member⟩
    rw [source, listed] at found
    cases found
    rcases Survey.mem_visitsAt.mp member with ⟨deep, _⟩ | ⟨_, token, letter, equal⟩
    · exact .inl deep
    · rw [equal] at missed
      exact .inr ⟨token, letter, missed⟩
  · intro limit
    by_cases deep : scope.maxDepth ≤ state.depth
    · refine ⟨.stop number, finished.mem_itinerary.mpr ⟨state, listed, ?_⟩, rfl, trivial⟩
      exact Survey.mem_visitsAt.mpr (.inl ⟨deep, rfl⟩)
    · rcases limit with tooDeep | ⟨token, letter, missed⟩
      · exact absurd tooDeep deep
      · refine ⟨.derive number state.discovery token,
          finished.mem_itinerary.mpr ⟨state, listed, ?_⟩, rfl, missed⟩
        exact Survey.mem_visitsAt.mpr (.inr ⟨Nat.lt_of_not_le deep, token, letter, rfl⟩)

/-- The transitions are the derivations, by a token of the alphabet and of a state that is
not too deep, that lead to a listed state. -/
theorem Finished.mem_transitions (finished : search.Finished relation scope)
    {transition : Transition α} :
    transition ∈ search.transitions.toList ↔
      ∃ origin target, search.table.toList[transition.source]? = some origin ∧
        origin.depth < scope.maxDepth ∧
        transition.token ∈ relation.explorationAlphabet scope ∧
        search.table.toList[transition.target]? = some target ∧
        target.configuration = (origin.discovery.after transition.token).configuration ∧
        transition.accepted = target.accepting := by
  rw [finished.transitions, List.mem_filterMap]
  constructor
  · intro taken
    rcases taken with ⟨visit, made, gives⟩
    rcases finished.mem_itinerary.mp made with ⟨origin, listed, member⟩
    rcases Survey.mem_visitsAt.mp member with ⟨_, equal⟩ | ⟨shallow, token, letter, equal⟩
    · rw [equal] at gives
      exact absurd gives nofun
    · rw [equal, Visit.transition?, Option.map_eq_some_iff] at gives
      rcases gives with ⟨target, reached, same⟩
      rw [← StateTable.find?_eq, StateTable.find?_eq_some_iff] at reached
      rcases reached with ⟨last, there, configuration⟩
      subst same
      refine ⟨origin, last, listed, shallow, letter, there, configuration, ?_⟩
      rw [(finished.states target last there).1, configuration]
  · intro derived
    rcases derived with ⟨origin, target, listed, shallow, letter, there, configuration, flag⟩
    refine ⟨.derive transition.source origin.discovery transition.token,
      finished.mem_itinerary.mpr ⟨origin, listed, ?_⟩, ?_⟩
    · exact Survey.mem_visitsAt.mpr (.inr ⟨shallow, transition.token, letter, rfl⟩)
    · have reached := StateTable.find?_eq_some_iff.mpr ⟨target, there, configuration⟩
      rw [StateTable.find?_eq] at reached
      rw [(finished.states transition.target target there).1, configuration] at flag
      rw [Visit.transition?, reached, Option.map_some, ← flag]

end Search

namespace Relation

/-- An exploration without room for states returns the first one only, truncated. -/
theorem value_explore_nowhere {relation : Relation α} {scope : Scope α}
    (nowhere : scope.maxStates = 0) :
    (relation.explore scope).value =
      ⟨#[⟨relation.start, relation.start.accepting, 0, true⟩], #[], 0⟩ := by
  rw [explore]
  simp only [Logged.value_andThen, Logged.value_reporting, if_pos nowhere, Logged.value_silent]

/-- Otherwise an exploration returns what a finished search has found. -/
theorem exists_finished {relation : Relation α} {scope : Scope α}
    (somewhere : scope.maxStates ≠ 0) :
    ∃ search : Search α, search.Finished relation scope ∧
      (relation.explore scope).value = search.space := by
  refine ⟨_, Search.finished_run relation scope, ?_⟩
  rw [explore]
  simp only [Logged.value_andThen, Logged.value_reporting, if_neg somewhere, Logged.value_map]

/-- An exploration is complete if its survey comes to an end at which no state is too deep
and each derivative is known. -/
theorem not_truncated_of_ended {relation : Relation α} {scope : Scope α} {number : Nat}
    (somewhere : scope.maxStates ≠ 0)
    (ended : ((relation.survey scope).found number).length ≤ number)
    (closed : ∀ origin ∈ (relation.survey scope).found number,
      origin.depth < scope.maxDepth ∧ ∀ token ∈ relation.explorationAlphabet scope,
        (origin.after token).configuration ∈
          Discovery.configurations ((relation.survey scope).found number)) :
    (relation.explore scope).value.truncated = false := by
  rcases exists_finished somewhere with ⟨search, finished, equal⟩
  rw [equal, StateSpace.truncated, Array.any_eq_false']
  intro state member cut
  rcases List.mem_iff_getElem?.mp member.val with ⟨position, listed⟩
  have found := List.mem_of_getElem? (Search.discoveries_of_states listed)
  rw [finished.discoveries_eq_of_ended ended] at found
  rcases (finished.truncated_iff listed).mp cut with deep | ⟨token, letter, missed⟩
  · exact Nat.not_le.mpr (closed _ found).1 deep
  · rw [← StateTable.configurations_discoveries, finished.discoveries_eq_of_ended ended] at missed
    exact missed ((closed _ found).2 token letter)

end Relation

end Residual
