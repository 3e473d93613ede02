import Mathlib.Order.Bounds.Defs
import Residual.Proofs.StateSpace.Layers
import Residual.Proofs.StateSpace.Result

/-!
# Explored spaces are breadth first

The states of an explored space are the discoveries of a survey that is over, so they come
in layers: each state stands at the length of the shortest words that lead to it, and all
but the first are entered from the layer before. As long as there was room for more states,
the layers up to the greatest depth are complete.
-/

namespace Residual

universe u

variable {α : Type u} [DecidableEq α] [Hashable α]

namespace Relation

variable (relation : Relation α) (scope : Scope α)

/-- The discoveries at which the states of an explored space stand are those of a survey
that is over. -/
theorem exists_ended :
    ∃ number, ((relation.survey scope).found number).length ≤ number ∧
      (relation.explore scope).value.states.toList.map ExploredState.discovery =
        (relation.survey scope).found number := by
  by_cases nowhere : scope.maxStates = 0
  · have full : (relation.survey scope).maxStates ≤
        ((relation.survey scope).found 0).length := by
      rw [survey, nowhere]
      exact Nat.zero_le _
    have start := Survey.found_eq_of_full full (Nat.zero_le 1)
    refine ⟨1, Nat.le_of_eq (congrArg List.length start), ?_⟩
    rw [start, value_explore_nowhere nowhere]
    rfl
  · rcases exists_finished nowhere with ⟨search, finished, equal⟩
    have length : ((relation.survey scope).found search.table.size).length =
        search.table.size := by
      rw [← finished.discoveries_eq, StateTable.length_discoveries]
    refine ⟨search.table.size, Nat.le_of_eq length, ?_⟩
    rw [equal]
    exact finished.discoveries_eq

/-- No configuration is listed twice. -/
theorem nodup_explore :
    ((relation.explore scope).value.states.toList.map (·.configuration)).Nodup := by
  rcases relation.exists_ended scope with ⟨number, _, same⟩
  have distinct := (relation.survey scope).nodup_found number
  rw [← same, Discovery.configurations, List.map_map] at distinct
  exact distinct

/-- A state is reached by a word of as many tokens as its depth says, within the limit. -/
theorem reaches_state {state : ExploredState α}
    (member : state ∈ (relation.explore scope).value.states) :
    relation.start.Reaches (relation.explorationAlphabet scope) state.depth
        state.configuration ∧ state.depth ≤ scope.maxDepth := by
  rcases relation.exists_ended scope with ⟨number, _, same⟩
  have listed : state.discovery ∈ (relation.survey scope).found number := by
    rw [← same]
    exact List.mem_map_of_mem member.val
  exact Survey.reaches_of_mem listed

/-- No shorter word leads to the state. -/
theorem depth_le_of_reaches {state : ExploredState α} {length : Nat}
    (member : state ∈ (relation.explore scope).value.states)
    (reached : relation.start.Reaches (relation.explorationAlphabet scope) length
      state.configuration) :
    state.depth ≤ length := by
  rcases relation.exists_ended scope with ⟨number, ended, same⟩
  have listed : state.discovery ∈ (relation.survey scope).found number := by
    rw [← same]
    exact List.mem_map_of_mem member.val
  exact Survey.depth_le_of_reaches ended listed reached

/-- As long as there is room for a further state, no configuration within the greatest depth
is missing. -/
theorem exists_state_of_reaches {configuration : Configuration α} {length : Nat}
    (room : (relation.explore scope).value.states.size < scope.maxStates)
    (within : length ≤ scope.maxDepth)
    (reached : relation.start.Reaches (relation.explorationAlphabet scope) length
      configuration) :
    ∃ state ∈ (relation.explore scope).value.states, state.configuration = configuration := by
  rcases relation.exists_ended scope with ⟨number, ended, same⟩
  rcases Survey.listed_or_cut ended reached with ⟨discovery, member, stands, _⟩ | ⟨limit, _⟩
  · rw [← same] at member
    rcases List.mem_map.mp member with ⟨state, listed, equal⟩
    subst equal
    exact ⟨state, ⟨listed⟩, stands⟩
  · rcases limit with full | deep
    · rw [← same, List.length_map] at full
      exact absurd room (Nat.not_lt.mpr full)
    · exact absurd within (Nat.not_le.mpr deep)

/-- Every state but the first is entered by a listed transition from the layer before. -/
theorem exists_incoming {number : Nat} {state : ExploredState α}
    (listed : (relation.explore scope).value.states[number]? = some state)
    (later : number ≠ (relation.explore scope).value.initial) :
    ∃ transition ∈ (relation.explore scope).value.transitions,
      transition.target = number ∧ transition.source < number ∧
      ∃ origin, (relation.explore scope).value.states[transition.source]? = some origin ∧
        origin.depth + 1 = state.depth := by
  by_cases nowhere : scope.maxStates = 0
  · rw [value_explore_nowhere nowhere] at listed later
    rcases Array.getElem?_eq_some_iff.mp listed with ⟨inside, _⟩
    exact absurd (Nat.lt_one_iff.mp inside) later
  · rcases exists_finished nowhere with ⟨search, finished, equal⟩
    rw [equal] at listed later ⊢
    rw [search.states_space] at listed
    have found := Search.discoveries_of_states listed
    rw [finished.discoveries_eq] at found
    rcases Survey.exists_origin found with
      ⟨first, _⟩ | ⟨source, earlier, discovery, known, shallow, token, letter, derived⟩
    · exact absurd first later
    · rw [← finished.discoveries_eq, StateTable.discoveries, List.getElem?_map,
        Option.map_eq_some_iff] at known
      rcases known with ⟨origin, there, stands⟩
      subst stands
      refine ⟨⟨source, token, number, state.accepting⟩, ?_, rfl, earlier, origin, ?_, ?_⟩
      · exact ⟨finished.mem_transitions.mpr ⟨origin, state, there, shallow, letter, listed,
          congrArg Discovery.configuration derived, rfl⟩⟩
      · rw [search.states_space]
        exact there
      · exact (congrArg Discovery.depth derived).symm

end Relation

end Residual
