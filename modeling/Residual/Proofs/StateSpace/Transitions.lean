import Residual.Proofs.StateSpace.BreadthFirst

/-!
# The transitions of an explored space

While a state is expanded others are still being discovered, yet the finished list of states
tells what the expansion has done. A state that is not too deep has one transition for every
occurrence of a token in the alphabet whose derivative is listed, in the order of the
alphabet; any other occurrence has truncated it. The transitions come state by state, so
those of one state stand together.
-/

namespace Residual

universe u v

variable {α : Type u}

namespace StateSpace

/-! ## Transitions state by state -/

/-- The transitions are listed in the order of their sources. -/
structure Grouped (space : StateSpace α) (leaving : Nat → List (Transition α)) : Prop where
  transitions : space.transitions.toList = (List.range space.states.size).flatMap leaving
  source : ∀ number, ∀ transition ∈ leaving number, transition.source = number

/-- If all groups but one are emptied, that one is left. -/
theorem flatMap_range_eq_of_lt {β : Type v} (group : Nat → List β) {count state : Nat}
    (inside : state < count) :
    ((List.range count).flatMap fun number => if number = state then group number else []) =
      group state := by
  induction count with
  | zero => exact absurd inside (Nat.not_lt_zero state)
  | succ count ih =>
      rw [List.range_succ, List.flatMap_append, List.flatMap_singleton]
      rcases Nat.lt_succ_iff_lt_or_eq.mp inside with earlier | last
      · rw [ih earlier, if_neg (Nat.ne_of_gt earlier), List.append_nil]
      · have before : ((List.range count).flatMap fun number =>
            if number = state then group number else []) = [] := by
          apply List.flatMap_eq_nil_iff.mpr
          intro number member
          exact if_neg (Nat.ne_of_lt (last ▸ List.mem_range.mp member))
        rw [before, if_pos last.symm, last, List.nil_append]

namespace Grouped

variable {space : StateSpace α} {leaving : Nat → List (Transition α)}

theorem filter_leaving (grouped : space.Grouped leaving) (number state : Nat) :
    (leaving number).filter (fun transition => decide (transition.source = state)) =
      if number = state then leaving number else [] := by
  split
  · next same =>
      apply List.filter_eq_self.mpr
      intro transition member
      exact decide_eq_true ((grouped.source number transition member).trans same)
  · next other =>
      apply List.filter_eq_nil_iff.mpr
      intro transition member
      rw [grouped.source number transition member, decide_eq_true_iff]
      exact other

/-- The group of a state is what leaves it. -/
theorem successors_eq (grouped : space.Grouped leaving) {state : Nat}
    (inside : state < space.states.size) : space.successors state = leaving state := by
  rw [successors, grouped.transitions, List.filter_flatMap]
  simp only [grouped.filter_leaving]
  exact flatMap_range_eq_of_lt leaving inside

theorem flatMap_successors (grouped : space.Grouped leaving) :
    (List.range space.states.size).flatMap space.successors = space.transitions.toList := by
  rw [grouped.transitions]
  apply List.flatMap_congr
  intro number member
  exact grouped.successors_eq (List.mem_range.mp member)

theorem pairwise_source_le (grouped : space.Grouped leaving) :
    space.transitions.toList.Pairwise fun earlier later => earlier.source ≤ later.source := by
  rw [grouped.transitions, List.pairwise_flatMap]
  constructor
  · intro number _
    apply List.pairwise_of_forall_mem_list
    intro earlier first later second
    have same : earlier.source = later.source := by
      rw [grouped.source number earlier first, grouped.source number later second]
    exact Nat.le_of_eq same
  · apply List.pairwise_lt_range.imp
    intro before behind less earlier first later second
    rw [grouped.source before earlier first, grouped.source behind later second]
    exact Nat.le_of_lt less

end Grouped

end StateSpace

/-! ## Visits state by state -/

namespace Survey

variable [DecidableEq α]

/-- The visits to the state of a number, if there is such a state. -/
def visitsTo (survey : Survey α) (known : List (Discovery α)) (number : Nat) :
    List (Visit α) :=
  match known[number]? with
  | none => []
  | some origin => survey.visitsAt number origin

/-- A survey visits one state after the other. -/
theorem itinerary_eq_flatMap (survey : Survey α) (number : Nat) :
    survey.itinerary number =
      (List.range number).flatMap (survey.visitsTo (survey.found number)) := by
  induction number with
  | zero => rfl
  | succ number ih =>
      rw [List.range_succ, List.flatMap_append, List.flatMap_singleton]
      cases listed : (survey.found number)[number]? with
      | none =>
          have ended := List.getElem?_eq_none_iff.mp listed
          rw [itinerary_succ_of_length_le ended, found_succ_of_length_le ended, ← ih, visitsTo,
            listed, List.append_nil]
      | some origin =>
          have inside := (List.getElem?_eq_some_iff.mp listed).1
          have kept : ∀ earlier ∈ List.range number,
              survey.visitsTo (survey.found (number + 1)) earlier =
                survey.visitsTo (survey.found number) earlier := by
            intro earlier member
            have known := Nat.lt_trans (List.mem_range.mp member) inside
            rw [visitsTo, getElem?_found_succ known, visitsTo]
          rw [itinerary_succ listed, ih, List.flatMap_congr kept, visitsTo,
            getElem?_found_succ inside, listed]

end Survey

/-! ## Expanded spaces -/

/-- The configuration behind a token. -/
def ExploredState.derivative [DecidableEq α] (state : ExploredState α) (token : α) :
    Configuration α :=
  ⟨state.configuration.expression.derive token⟩

theorem ExploredState.derivative_eq [DecidableEq α] (state : ExploredState α) (token : α) :
    state.derivative token = (state.discovery.after token).configuration := rfl

namespace StateSpace

/-- The configurations of the listed states, in order. -/
def configurations (space : StateSpace α) : List (Configuration α) :=
  space.states.toList.map (·.configuration)

theorem getElem?_configurations (space : StateSpace α) (number : Nat) :
    space.configurations[number]? = space.states[number]?.map (·.configuration) := by
  rw [configurations, List.getElem?_map, Array.getElem?_toList]

/-- The discoveries at which the listed states stand, in order. -/
def discoveries (space : StateSpace α) : List (Discovery α) :=
  space.states.toList.map ExploredState.discovery

theorem length_discoveries (space : StateSpace α) :
    space.discoveries.length = space.states.size :=
  List.length_map _

theorem getElem?_discoveries (space : StateSpace α) (number : Nat) :
    space.discoveries[number]? = space.states[number]?.map ExploredState.discovery := by
  rw [discoveries, List.getElem?_map, Array.getElem?_toList]

/-- Behind every discovery there is a state. -/
theorem exists_listed {space : StateSpace α} {number : Nat} {discovery : Discovery α}
    (known : space.discoveries[number]? = some discovery) :
    ∃ state, space.states[number]? = some state ∧ state.discovery = discovery := by
  rw [getElem?_discoveries, Option.map_eq_some_iff] at known
  exact known

theorem configurations_eq (space : StateSpace α) :
    space.configurations = Discovery.configurations space.discoveries := by
  rw [configurations, Discovery.configurations, discoveries, List.map_map]
  rfl

variable [DecidableEq α]

/-- The transition by a token from a state. It leads to the listed state that stands at the
derivative and tells whether that accepts; if there is no such state, there is no transition. -/
def transition? (space : StateSpace α) (source : Nat) (origin : ExploredState α) (token : α) :
    Option (Transition α) :=
  (space.states.findFinIdx? fun state => state.configuration = origin.derivative token).map
    fun (target : Fin space.states.size) =>
      ⟨source, token, target, space.states[target].accepting⟩

/-- The transitions that leave a state, in the order of the tokens. None leave a state that is
too deep. -/
def leaving (space : StateSpace α) (maxDepth : Nat) (alphabet : List α) (source : Nat) :
    List (Transition α) :=
  match space.states[source]? with
  | none => []
  | some origin =>
      if maxDepth ≤ origin.depth then [] else alphabet.filterMap (space.transition? source origin)

theorem source_of_mem_leaving {space : StateSpace α} {maxDepth : Nat} {alphabet : List α}
    {source : Nat} {transition : Transition α}
    (member : transition ∈ space.leaving maxDepth alphabet source) :
    transition.source = source := by
  rw [leaving] at member
  split at member
  · cases member
  · split at member
    · cases member
    · rcases List.mem_filterMap.mp member with ⟨token, _, made⟩
      rcases Option.map_eq_some_iff.mp made with ⟨target, _, same⟩
      rw [← same]

/-- A space all of whose states have been expanded. -/
structure Expanded (maxDepth : Nat) (alphabet : List α) (space : StateSpace α) : Prop where
  accepting : ∀ state ∈ space.states, state.accepting = state.configuration.accepting
  distinct : space.configurations.Nodup
  grouped : space.Grouped (space.leaving maxDepth alphabet)
  truncated_iff : ∀ {number : Nat} {state : ExploredState α}, space.states[number]? = some state →
    (state.truncated = true ↔
      maxDepth ≤ state.depth ∨ ∃ token ∈ alphabet, state.derivative token ∉ space.configurations)

/-- There is no transition exactly if the derivative is not listed. -/
theorem transition?_eq_none_iff {space : StateSpace α} {source : Nat} {origin : ExploredState α}
    {token : α} :
    space.transition? source origin token = none ↔
      origin.derivative token ∉ space.configurations := by
  rw [transition?, Option.map_eq_none_iff, Array.findFinIdx?_eq_none_iff]
  constructor
  · intro differ member
    rcases List.mem_map.mp member with ⟨state, listed, stands⟩
    exact differ state ⟨listed⟩ (decide_eq_true stands)
  · intro missing state listed stands
    exact missing (List.mem_map.mpr ⟨state, listed.val, of_decide_eq_true stands⟩)

/-- Different states stand at different configurations. -/
theorem Expanded.number_eq {space : StateSpace α} {maxDepth : Nat} {alphabet : List α}
    (expanded : space.Expanded maxDepth alphabet) {first second : Nat}
    {here there : ExploredState α} (listed : space.states[first]? = some here)
    (again : space.states[second]? = some there)
    (same : here.configuration = there.configuration) : first = second := by
  have stands : space.configurations[first]? = some here.configuration := by
    rw [getElem?_configurations, listed, Option.map_some]
  have standsToo : space.configurations[second]? = some here.configuration := by
    rw [getElem?_configurations, again, Option.map_some, same]
  have inside := (List.getElem?_eq_some_iff.mp stands).1
  exact (List.getElem?_inj inside expanded.distinct).mp (stands.trans standsToo.symm)

/-- No other state stands where the target of a transition does. -/
theorem Expanded.transition?_eq_some_iff {space : StateSpace α} {maxDepth : Nat}
    {alphabet : List α} (expanded : space.Expanded maxDepth alphabet) {source : Nat}
    {origin : ExploredState α} {token : α} {transition : Transition α} :
    space.transition? source origin token = some transition ↔
      transition.source = source ∧ transition.token = token ∧
        ∃ target, space.states[transition.target]? = some target ∧
          target.configuration = origin.derivative token ∧
          transition.accepted = target.accepting := by
  rw [transition?, Option.map_eq_some_iff]
  constructor
  · intro taken
    rcases taken with ⟨target, found, same⟩
    subst same
    have stands := of_decide_eq_true (Array.findFinIdx?_eq_some_iff.mp found).1
    exact ⟨rfl, rfl, space.states[target], Array.getElem?_eq_getElem target.isLt, stands, rfl⟩
  · intro leads
    rcases leads with ⟨atSource, byToken, target, listed, stands, flag⟩
    cases found : space.states.findFinIdx? fun state =>
        state.configuration = origin.derivative token with
    | none =>
        have differ := Array.findFinIdx?_eq_none_iff.mp found target (Array.mem_of_getElem? listed)
        exact absurd (decide_eq_true stands) differ
    | some other =>
        have also := of_decide_eq_true (Array.findFinIdx?_eq_some_iff.mp found).1
        have there := Array.getElem?_eq_getElem other.isLt
        have position := expanded.number_eq there listed (also.trans stands.symm)
        rw [← position, there] at listed
        cases listed
        refine ⟨other, rfl, ?_⟩
        rw [← atSource, ← byToken, position]
        cases transition
        cases flag
        rfl

end StateSpace

namespace Search

variable [DecidableEq α] [Hashable α]
variable {relation : Relation α} {scope : Scope α} {search : Search α}

/-- A state of a finished search accepts if its configuration does. -/
theorem Finished.accepting_eq (finished : search.Finished relation scope)
    {state : ExploredState α} (member : state ∈ search.space.states) :
    state.accepting = state.configuration.accepting := by
  rcases List.mem_iff_getElem?.mp member.val with ⟨number, listed⟩
  exact (finished.states number state listed).1

/-- A visit leads to the state that stands at the derivative in the list. -/
theorem Finished.transition?_eq (finished : search.Finished relation scope) (source : Nat)
    (origin : ExploredState α) (token : α) :
    (Visit.derive source origin.discovery token).transition? search.table.configurations =
      search.space.transition? source origin token := by
  have position : search.table.configurations.findIdx? (· == origin.derivative token) =
      (search.space.states.findFinIdx? fun state =>
        state.configuration = origin.derivative token).map (·.val) := by
    rw [← Array.findIdx?_eq_map_findFinIdx?_val, StateTable.configurations, List.findIdx?_map]
    exact (List.findIdx?_toArray _ search.table.toList).symm
  have reached : (Visit.derive source origin.discovery token).transition?
      search.table.configurations =
        (search.table.configurations.findIdx? (· == origin.derivative token)).map fun target =>
          ⟨source, token, target, (origin.derivative token).accepting⟩ := rfl
  rw [reached, position, Option.map_map, StateSpace.transition?]
  apply Option.map_congr
  intro target found
  have stands := of_decide_eq_true (Array.findFinIdx?_eq_some_iff.mp found).1
  have flag : search.space.states[target].accepting = (origin.derivative token).accepting :=
    (finished.accepting_eq (Array.getElem_mem target.isLt)).trans
      (congrArg Configuration.accepting stands)
  rw [flag]
  rfl

/-- The visits to a state take the transitions that leave it. -/
theorem Finished.filterMap_visitsTo (finished : search.Finished relation scope) (number : Nat) :
    ((relation.survey scope).visitsTo search.table.discoveries number).filterMap
        (Visit.transition? search.table.configurations) =
      search.space.leaving scope.maxDepth (relation.explorationAlphabet scope) number := by
  rw [Survey.visitsTo, StateSpace.leaving, search.states_space, StateTable.discoveries,
    List.getElem?_map]
  cases search.table.toList[number]? with
  | none => rfl
  | some origin =>
      simp only [Option.map_some]
      by_cases deep : scope.maxDepth ≤ origin.depth
      · have stopped : (relation.survey scope).visitsAt number origin.discovery =
            [.stop number] :=
          if_pos deep
        rw [stopped, if_pos deep]
        rfl
      · have derived : (relation.survey scope).visitsAt number origin.discovery =
            (relation.explorationAlphabet scope).map (.derive number origin.discovery) :=
          if_neg deep
        rw [derived, if_neg deep, List.filterMap_map]
        apply List.filterMap_congr
        intro token _
        exact finished.transition?_eq number origin token

/-- A finished search has expanded every state. -/
theorem Finished.expanded (finished : search.Finished relation scope) :
    search.space.Expanded scope.maxDepth (relation.explorationAlphabet scope) where
  accepting _ member := finished.accepting_eq member
  distinct := search.table.distinct
  grouped := by
    constructor
    case transitions =>
      have taken := finished.transitions
      rw [Survey.itinerary_eq_flatMap, ← finished.discoveries_eq, List.filterMap_flatMap] at taken
      simp only [finished.filterMap_visitsTo] at taken
      exact taken
    case source =>
      intro number transition member
      exact StateSpace.source_of_mem_leaving member
  truncated_iff := by
    intro number state listed
    rw [search.states_space] at listed
    exact finished.truncated_iff listed

end Search

namespace Relation

variable [DecidableEq α] [Hashable α] {relation : Relation α} {scope : Scope α}

/-- All states of an explored space have been expanded, if there is room for one. -/
theorem explore_expanded (somewhere : scope.maxStates ≠ 0) :
    (relation.explore scope).value.Expanded scope.maxDepth
      (relation.explorationAlphabet scope) := by
  rcases exists_finished somewhere with ⟨search, finished, equal⟩
  rw [equal]
  exact finished.expanded

/-- The states of an explored space stand at the discoveries of its survey, once that is over. -/
theorem discoveries_explore (relation : Relation α) (scope : Scope α) {number : Nat}
    (ended : ((relation.survey scope).found number).length ≤ number) :
    (relation.explore scope).value.discoveries = (relation.survey scope).found number := by
  rcases relation.exists_ended scope with ⟨other, endedThere, listed⟩
  rw [StateSpace.discoveries, listed, Survey.found_eq_found endedThere ended]

theorem explore_initial (somewhere : scope.maxStates ≠ 0) :
    (relation.explore scope).value.initial = 0 ∧
      ∃ first, (relation.explore scope).value.states[0]? = some first ∧
        first.configuration = ⟨relation.expression⟩ := by
  rcases exists_finished somewhere with ⟨search, finished, equal⟩
  rcases finished.initial with ⟨first, listed, stands⟩
  rw [equal]
  refine ⟨rfl, first, ?_, congrArg Discovery.configuration stands⟩
  rw [search.states_space]
  exact listed

/-- The transitions and the truncation marks of an explored space are exact. The first state is
the initial one and stands at the expression. The flags tell which states accept. No transition
leaves a state at the greatest depth; from any other there is one for each entry of the
alphabet whose derivative is listed, in this order and to the state listed there, and there are
no others. Transitions are ordered by their sources. A state is truncated exactly if it is at
the greatest depth or some entry of the alphabet leads to no listed state. -/
theorem explore_transitions_exact (relation : Relation α) (scope : Scope α)
    (somewhere : 1 ≤ scope.maxStates) :
    let space := (relation.explore scope).value
    let alphabet := relation.explorationAlphabet scope
    (space.initial = 0 ∧ ∃ first, space.states[0]? = some first ∧
      first.configuration = ⟨relation.expression⟩) ∧
    (∀ state ∈ space.states, state.accepting = state.configuration.expression.nullable) ∧
    (∀ number state, space.states[number]? = some state →
      (scope.maxDepth ≤ state.depth → space.successors number = []) ∧
      (state.depth < scope.maxDepth →
        space.successors number = alphabet.filterMap (space.transition? number state)) ∧
      (state.truncated = true ↔ scope.maxDepth ≤ state.depth ∨
        ∃ token ∈ alphabet, state.derivative token ∉ space.configurations)) ∧
    (space.transitions.toList.Pairwise fun earlier later => earlier.source ≤ later.source) ∧
    (List.range space.states.size).flatMap space.successors = space.transitions.toList := by
  intro space alphabet
  have nonzero : scope.maxStates ≠ 0 := Nat.one_le_iff_ne_zero.mp somewhere
  have expanded : space.Expanded scope.maxDepth alphabet := explore_expanded nonzero
  refine ⟨explore_initial nonzero, expanded.accepting, ?_, expanded.grouped.pairwise_source_le,
    expanded.grouped.flatMap_successors⟩
  intro number state listed
  have inside := (Array.getElem?_eq_some_iff.mp listed).1
  have leaving : space.successors number =
      if scope.maxDepth ≤ state.depth then []
      else alphabet.filterMap (space.transition? number state) := by
    rw [expanded.grouped.successors_eq inside, StateSpace.leaving, listed]
  refine ⟨?_, ?_, expanded.truncated_iff listed⟩
  · intro deep
    rw [leaving, if_pos deep]
  · intro shallow
    rw [leaving, if_neg (Nat.not_le.mpr shallow)]

/-- Exploring `0*` by the tokens `0`, `1` and again `0`, with room for two states that are not
followed further than one token: both `0` lead to the second state, and `1` to none. -/
theorem explore_transitions_of_zeros :
    let relation : Relation Nat := ⟨"zeros", .star (.token 0)⟩
    let scope : Scope Nat := ⟨1, 2, some [0, 1, 0]⟩
    let space := (relation.explore scope).value
    1 ≤ scope.maxStates ∧
      space.successors 0 = [⟨0, 0, 1, true⟩, ⟨0, 0, 1, true⟩] ∧ space.successors 1 = [] ∧
      ∀ state ∈ space.states, state.truncated = true := by
  intro relation scope space
  have somewhere : 1 ≤ scope.maxStates := by decide
  have expanded : (relation.explore scope).value.Expanded 1 [0, 1, 0] :=
    explore_expanded (show scope.maxStates ≠ 0 by decide)
  have discoveries : space.discoveries =
      [⟨⟨.star (.token 0)⟩, 0⟩, ⟨⟨.concat .epsilon (.star (.token 0))⟩, 1⟩] := by
    have ended : ((relation.survey scope).found 2).length ≤ 2 := by decide +kernel
    exact (relation.discoveries_explore scope ended).trans (by decide +kernel)
  rcases List.map_eq_cons_iff.mp discoveries with ⟨first, others, split, atFirst, later⟩
  rcases List.map_eq_cons_iff.mp later with ⟨second, rest, splitOthers, atSecond, ends⟩
  have all : space.states.toList = [first, second] := by
    rw [split, splitOthers, List.map_eq_nil_iff.mp ends]
  have firstListed : space.states[0]? = some first := by
    rw [← Array.getElem?_toList, all]
    rfl
  have secondListed : space.states[1]? = some second := by
    rw [← Array.getElem?_toList, all]
    rfl
  rcases explore_transitions_exact relation scope somewhere with
    ⟨_, accepting, expansion, _, _⟩
  rcases expansion 0 first firstListed with ⟨_, taken, firstCut⟩
  rcases expansion 1 second secondListed with ⟨stops, _, secondCut⟩
  have here : first.configuration = ⟨.star (.token 0)⟩ :=
    congrArg Discovery.configuration atFirst
  have there : second.configuration = ⟨.concat .epsilon (.star (.token 0))⟩ :=
    congrArg Discovery.configuration atSecond
  have flag : second.accepting = true := by
    rw [accepting second (Array.mem_of_getElem? secondListed), there]
    rfl
  have zero : space.transition? 0 first 0 = some ⟨0, 0, 1, true⟩ := by
    apply expanded.transition?_eq_some_iff.mpr
    refine ⟨rfl, rfl, second, secondListed, ?_, flag.symm⟩
    rw [there, ExploredState.derivative, here]
    rfl
  have missing : first.derivative 1 ∉ space.configurations := by
    rw [space.configurations_eq, discoveries, first.derivative_eq, atFirst]
    decide
  have one : space.transition? 0 first 1 = none :=
    StateSpace.transition?_eq_none_iff.mpr missing
  refine ⟨somewhere, ?_, stops (Nat.le_of_eq (congrArg Discovery.depth atSecond).symm), ?_⟩
  · have shallow : first.depth < scope.maxDepth :=
      Nat.lt_of_le_of_lt (Nat.le_of_eq (congrArg Discovery.depth atFirst)) Nat.one_pos
    rw [taken shallow]
    show [0, 1, 0].filterMap (space.transition? 0 first) = _
    simp only [List.filterMap_cons, zero, one, List.filterMap_nil]
  · intro state member
    have either : state ∈ [first, second] := all ▸ member.val
    rcases List.mem_pair.mp either with rfl | rfl
    · exact firstCut.mpr (.inr ⟨1, by decide, missing⟩)
    · exact secondCut.mpr (.inl (Nat.le_of_eq (congrArg Discovery.depth atSecond).symm))

end Relation

end Residual
