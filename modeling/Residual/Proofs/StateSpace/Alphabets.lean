import Mathlib.Data.List.Perm.Subperm
import Residual.Proofs.Lists.Repetition
import Residual.Proofs.StateSpace.Transitions

/-!
# Explorations by other alphabets

A token that stands in an alphabet again leads where it led the first time, and that place is
listed, or was turned away for want of room and would be turned away again. So repetitions add
transitions and nothing else, even while the list of states is full.

The order of an alphabet decides which state is discovered first, and with that the numbers.
What is found does not depend on it as long as there is room: the configurations, their depths
and marks and the transitions between them can all be told from the set of tokens alone.
-/

namespace Residual

universe u

variable {α : Type u} [DecidableEq α]

/-! ## Repetitions in a survey -/

namespace Discovery

/-- What is offered again is not listed again, whether it was listed or turned away. -/
theorem enlist_again {maxStates : Nat} {known found : List (Discovery α)}
    {discovery : Discovery α} (member : discovery ∈ found) :
    enlist maxStates (enlistAll maxStates known found) discovery =
      enlistAll maxStates known found := by
  rcases mem_or_full_enlistAll member with listed | full
  · exact enlist_known listed
  · exact enlist_full discovery full

/-- Repeated tokens discover nothing. -/
theorem enlistAll_eraseDups (maxStates : Nat) (known : List (Discovery α)) (origin : Discovery α)
    (tokens : List α) :
    enlistAll maxStates known (tokens.eraseDups.map origin.after) =
      enlistAll maxStates known (tokens.map origin.after) := by
  induction tokens using List.reverseRecOn with
  | nil => rfl
  | append_singleton tokens token ih =>
      rw [List.map_append, enlistAll_append, ← ih]
      by_cases repeated : token ∈ tokens
      · have again : origin.after token ∈ tokens.eraseDups.map origin.after :=
          List.mem_map_of_mem (List.mem_eraseDups.mpr repeated)
        rw [eraseDups_concat_of_mem repeated]
        exact (enlist_again again).symm
      · rw [eraseDups_concat_of_notMem repeated, List.map_append, enlistAll_append]

end Discovery

namespace Survey

/-- The survey without the repetitions of its alphabet. -/
def reduced (survey : Survey α) : Survey α :=
  { survey with alphabet := survey.alphabet.eraseDups }

theorem offered_eq (survey : Survey α) (number : Nat) (origin : Discovery α) :
    (survey.visitsAt number origin).filterMap Visit.discovery? =
      if survey.maxDepth ≤ origin.depth then [] else survey.alphabet.map origin.after := by
  rw [visitsAt]
  split
  · rfl
  · rw [List.filterMap_map, ← List.filterMap_eq_map]
    rfl

/-- A survey finds the same without repetitions. -/
theorem found_reduced (survey : Survey α) (number : Nat) :
    survey.reduced.found number = survey.found number := by
  induction number with
  | zero => rfl
  | succ number ih =>
      cases listed : (survey.found number)[number]? with
      | none =>
          have ended := List.getElem?_eq_none_iff.mp listed
          rw [found_succ_of_length_le ended, found_succ_of_length_le (ih ▸ ended), ih]
      | some origin =>
          rw [found_succ listed, found_succ (ih ▸ listed), ih, offered_eq, offered_eq]
          by_cases deep : survey.maxDepth ≤ origin.depth
          · rw [if_pos deep, if_pos (show survey.reduced.maxDepth ≤ origin.depth from deep)]
            rfl
          · rw [if_neg deep, if_neg (show ¬ survey.reduced.maxDepth ≤ origin.depth from deep)]
            exact Discovery.enlistAll_eraseDups survey.maxStates _ origin survey.alphabet

end Survey

/-! ## Spaces explored by the same tokens -/

namespace StateSpace

/-- What a derivation of a state by a token lists, if anything. -/
def produced? (space : StateSpace α) (maxDepth number : Nat) (token : α) :
    Option (Transition α) :=
  match space.states[number]? with
  | none => none
  | some origin => if maxDepth ≤ origin.depth then none else space.transition? number origin token

theorem produced?_eq {space : StateSpace α} {maxDepth number : Nat} {origin : ExploredState α}
    (listed : space.states[number]? = some origin) :
    space.produced? maxDepth number = fun token =>
      if maxDepth ≤ origin.depth then none else space.transition? number origin token := by
  funext token
  rw [produced?, listed]

theorem leaving_eq (space : StateSpace α) (maxDepth : Nat) (alphabet : List α) (number : Nat) :
    space.leaving maxDepth alphabet number =
      alphabet.filterMap (space.produced? maxDepth number) := by
  rw [leaving]
  cases listed : space.states[number]? with
  | none => simp [produced?, listed]
  | some origin =>
      by_cases deep : maxDepth ≤ origin.depth
      · simp [produced?_eq listed, deep]
      · simp [produced?_eq listed, deep]

/-- The states alone decide what is listed. -/
theorem produced?_congr {first second : StateSpace α} (same : first.states = second.states) :
    first.produced? = second.produced? := by
  cases first
  cases second
  cases same
  rfl

/-- A transition tells which derivation it comes from. -/
theorem of_produced?_eq_some {space : StateSpace α} {maxDepth number : Nat} {token : α}
    {transition : Transition α}
    (listed : space.produced? maxDepth number token = some transition) :
    transition.source = number ∧ transition.token = token := by
  rw [produced?] at listed
  split at listed
  · cases listed
  · split at listed
    · cases listed
    · obtain ⟨target, _, same⟩ := Option.map_eq_some_iff.mp listed
      rw [← same]
      exact ⟨rfl, rfl⟩

/-- The transitions come state by state, and at each state in the order of the alphabet, one
for each entry that produces one. -/
def Enumerates (space : StateSpace α) (alphabet : List α)
    (produced : Nat → α → Option (Transition α)) : Prop :=
  space.transitions.toList =
    (List.range space.states.size).flatMap fun number => alphabet.filterMap (produced number)

theorem Expanded.enumerates {space : StateSpace α} {maxDepth : Nat} {alphabet : List α}
    (expanded : space.Expanded maxDepth alphabet) :
    space.Enumerates alphabet (space.produced? maxDepth) := by
  rw [Enumerates, expanded.grouped.transitions]
  exact List.flatMap_congr fun number _ => space.leaving_eq maxDepth alphabet number

/-- Without the repetitions of the alphabet, each transition is left where it came first. -/
theorem Enumerates.eraseDups {full reduced : StateSpace α} {alphabet : List α}
    {produced : Nat → α → Option (Transition α)}
    (origin : ∀ number token transition, produced number token = some transition →
      transition.source = number ∧ transition.token = token)
    (enumerates : full.Enumerates alphabet produced)
    (fewer : reduced.Enumerates alphabet.eraseDups produced)
    (states : reduced.states = full.states) :
    reduced.transitions.toList = full.transitions.toList.eraseDups := by
  have source : ∀ {number transition}, transition ∈ alphabet.filterMap (produced number) →
      transition.source = number := by
    intro number transition member
    obtain ⟨token, _, listed⟩ := List.mem_filterMap.mp member
    exact (origin number token transition listed).1
  have apart : ∀ {first second transition},
      transition ∈ alphabet.filterMap (produced first) →
        transition ∈ alphabet.filterMap (produced second) → first = second :=
    fun here there => (source here).symm.trans (source there)
  rw [Enumerates] at enumerates fewer
  rw [enumerates, fewer, states, eraseDups_flatMap_range apart]
  apply List.flatMap_congr
  intro number _
  refine (eraseDups_filterMap ?_ alphabet).symm
  intro first second transition here there
  exact (origin _ _ _ here).2.symm.trans (origin _ _ _ there).2

section SameTokens

variable {first second : StateSpace α} {maxDepth : Nat} {alphabet other : List α}

/-- States at the same discovery are equal if the same configurations are listed beside them,
even if they have different numbers. -/
theorem Expanded.state_eq (expanded : first.Expanded maxDepth alphabet)
    (expandedToo : second.Expanded maxDepth other)
    (tokens : ∀ token, token ∈ alphabet ↔ token ∈ other)
    (configurations : ∀ configuration,
      configuration ∈ first.configurations ↔ configuration ∈ second.configurations)
    {here there : ExploredState α} (listed : here ∈ first.states)
    (listedToo : there ∈ second.states) (same : here.discovery = there.discovery) :
    here = there := by
  obtain ⟨number, position⟩ := Array.mem_iff_getElem?.mp listed
  obtain ⟨otherNumber, otherPosition⟩ := Array.mem_iff_getElem?.mp listedToo
  have configuration : here.configuration = there.configuration :=
    congrArg Discovery.configuration same
  have depth : here.depth = there.depth := congrArg Discovery.depth same
  have accepting : here.accepting = there.accepting := by
    rw [expanded.accepting here listed, expandedToo.accepting there listedToo, configuration]
  have truncated : here.truncated = there.truncated := by
    rw [Bool.eq_iff_iff, expanded.truncated_iff position, expandedToo.truncated_iff otherPosition]
    simp only [ExploredState.derivative_eq, same, depth, tokens, configurations]
  cases here
  cases there
  cases configuration
  cases accepting
  cases depth
  cases truncated
  rfl

/-- If the discoveries are the same, so are the states. -/
theorem Expanded.states_eq (expanded : first.Expanded maxDepth alphabet)
    (expandedToo : second.Expanded maxDepth other)
    (tokens : ∀ token, token ∈ alphabet ↔ token ∈ other)
    (discoveries : first.discoveries = second.discoveries) : first.states = second.states := by
  have configurations : first.configurations = second.configurations := by
    rw [configurations_eq, configurations_eq, discoveries]
  apply Array.ext_getElem?
  intro number
  have same : first.states[number]?.map ExploredState.discovery =
      second.states[number]?.map ExploredState.discovery := by
    rw [← getElem?_discoveries, ← getElem?_discoveries, discoveries]
  cases here : first.states[number]? with
  | none =>
      rw [here, Option.map_none, eq_comm, Option.map_eq_none_iff] at same
      exact same.symm
  | some state =>
      cases there : second.states[number]? with
      | none => simp [here, there] at same
      | some stateToo =>
          simp only [here, there, Option.map_some, Option.some.injEq] at same
          exact congrArg some (expanded.state_eq expandedToo tokens
            (fun _ => configurations ▸ Iff.rfl) (Array.mem_of_getElem? here)
            (Array.mem_of_getElem? there) same)

end SameTokens

/-- A transition with the configurations that its numbers stand for. -/
structure Move (α : Type u) where
  source : Option (Configuration α)
  token : α
  target : Option (Configuration α)
  accepted : Bool
  deriving DecidableEq, Repr

/-- The transitions of a space, whatever the numbers of its states are. -/
def moves (space : StateSpace α) : List (Move α) :=
  space.transitions.toList.map fun transition =>
    ⟨space.configurations[transition.source]?, transition.token,
      space.configurations[transition.target]?, transition.accepted⟩

theorem Expanded.mem_transitions {space : StateSpace α} {maxDepth : Nat} {alphabet : List α}
    (expanded : space.Expanded maxDepth alphabet) {transition : Transition α} :
    transition ∈ space.transitions.toList ↔
      ∃ origin target, space.states[transition.source]? = some origin ∧
        origin.depth < maxDepth ∧ transition.token ∈ alphabet ∧
        space.states[transition.target]? = some target ∧
        target.configuration = origin.derivative transition.token ∧
        transition.accepted = target.accepting := by
  rw [expanded.enumerates, List.mem_flatMap]
  constructor
  · rintro ⟨number, _, member⟩
    obtain ⟨token, letter, listed⟩ := List.mem_filterMap.mp member
    obtain ⟨rfl, rfl⟩ := of_produced?_eq_some listed
    rw [produced?] at listed
    split at listed
    · cases listed
    · next origin here =>
        split at listed
        · cases listed
        · next shallow =>
            obtain ⟨_, _, target, there, stands, flag⟩ :=
              expanded.transition?_eq_some_iff.mp listed
            exact ⟨origin, target, here, Nat.lt_of_not_le shallow, letter, there, stands, flag⟩
  · rintro ⟨origin, target, here, shallow, letter, there, stands, flag⟩
    have inside := (Array.getElem?_eq_some_iff.mp here).1
    refine ⟨transition.source, List.mem_range.mpr inside, ?_⟩
    refine List.mem_filterMap.mpr ⟨transition.token, letter, ?_⟩
    simp only [produced?_eq here, if_neg (Nat.not_le.mpr shallow)]
    exact expanded.transition?_eq_some_iff.mpr ⟨rfl, rfl, target, there, stands, flag⟩

/-- Moves are told by the states and the tokens. -/
theorem Expanded.mem_moves {space : StateSpace α} {maxDepth : Nat} {alphabet : List α}
    (expanded : space.Expanded maxDepth alphabet) {move : Move α} :
    move ∈ space.moves ↔
      ∃ origin ∈ space.states, origin.depth < maxDepth ∧ ∃ token ∈ alphabet,
        ∃ target ∈ space.states, target.configuration = origin.derivative token ∧
          move = ⟨some origin.configuration, token, some target.configuration,
            target.accepting⟩ := by
  rw [moves, List.mem_map]
  constructor
  · rintro ⟨transition, member, rfl⟩
    obtain ⟨origin, target, here, shallow, letter, there, stands, flag⟩ :=
      expanded.mem_transitions.mp member
    refine ⟨origin, Array.mem_of_getElem? here, shallow, transition.token, letter, target,
      Array.mem_of_getElem? there, stands, ?_⟩
    simp only [getElem?_configurations, here, there, flag, Option.map_some]
  · rintro ⟨origin, listed, shallow, token, letter, target, listedToo, stands, rfl⟩
    obtain ⟨source, here⟩ := Array.mem_iff_getElem?.mp listed
    obtain ⟨goal, there⟩ := Array.mem_iff_getElem?.mp listedToo
    refine ⟨⟨source, token, goal, target.accepting⟩, ?_, ?_⟩
    · exact expanded.mem_transitions.mpr
        ⟨origin, target, here, shallow, letter, there, stands, rfl⟩
    · simp only [getElem?_configurations, here, there, Option.map_some]

end StateSpace

/-! ## Explorations by the same tokens -/

theorem Configuration.reaches_congr {start target : Configuration α} {alphabet other : List α}
    (tokens : ∀ token, token ∈ alphabet ↔ token ∈ other) {length : Nat} :
    start.Reaches alphabet length target ↔ start.Reaches other length target := by
  simp only [Reaches, tokens]

namespace Relation

variable [Hashable α] {relation : Relation α} {first second : Scope α}

/-- Scopes with the same limits that have an expression explored by the same tokens. -/
structure SameTokens (relation : Relation α) (first second : Scope α) : Prop where
  maxDepth : first.maxDepth = second.maxDepth
  maxStates : first.maxStates = second.maxStates
  tokens : ∀ token, token ∈ relation.explorationAlphabet first ↔
    token ∈ relation.explorationAlphabet second

theorem SameTokens.symm (same : relation.SameTokens first second) :
    relation.SameTokens second first :=
  ⟨same.maxDepth.symm, same.maxStates.symm, fun token => (same.tokens token).symm⟩

theorem expanded_of_room {scope : Scope α}
    (room : (relation.explore scope).value.states.size < scope.maxStates) :
    (relation.explore scope).value.Expanded scope.maxDepth
      (relation.explorationAlphabet scope) :=
  explore_expanded (Nat.ne_of_gt (Nat.zero_lt_of_lt room))

/-- Where there is room, a state is discovered that the other exploration has discovered, and
at the same depth. -/
theorem SameTokens.exists_discovery (same : relation.SameTokens first second)
    (room : (relation.explore first).value.states.size < first.maxStates)
    {state : ExploredState α} (member : state ∈ (relation.explore second).value.states) :
    ∃ here ∈ (relation.explore first).value.states, here.discovery = state.discovery := by
  obtain ⟨reached, within⟩ := relation.reaches_state second member
  have reachedHere := (Configuration.reaches_congr same.tokens).mpr reached
  obtain ⟨here, listed, stands⟩ :=
    relation.exists_state_of_reaches first room (same.maxDepth ▸ within) reachedHere
  have reachedToo := (relation.reaches_state first listed).1
  rw [Configuration.reaches_congr same.tokens, stands] at reachedToo
  have noDeeper : here.depth ≤ state.depth :=
    relation.depth_le_of_reaches first listed (stands ▸ reachedHere)
  have noShallower : state.depth ≤ here.depth :=
    relation.depth_le_of_reaches second member reachedToo
  exact ⟨here, listed, congrArg₂ Discovery.mk stands (Nat.le_antisymm noDeeper noShallower)⟩

/-- If one of the explorations has room, it lists all that the other one lists. -/
theorem SameTokens.configurations_subset (same : relation.SameTokens first second)
    (room : (relation.explore first).value.states.size < first.maxStates) :
    (relation.explore second).value.configurations ⊆
      (relation.explore first).value.configurations := by
  intro configuration member
  obtain ⟨state, listed, stands⟩ := List.mem_map.mp member
  obtain ⟨here, listedHere, discovery⟩ := same.exists_discovery room ⟨listed⟩
  refine List.mem_map.mpr ⟨here, listedHere.val, ?_⟩
  exact (congrArg Discovery.configuration discovery).trans stands

/-- Room in one of the explorations is room in both. -/
theorem SameTokens.room (same : relation.SameTokens first second)
    (room : (relation.explore first).value.states.size < first.maxStates) :
    (relation.explore second).value.states.size < second.maxStates := by
  have somewhere : second.maxStates ≠ 0 := by
    rw [← same.maxStates]
    exact Nat.ne_of_gt (Nat.zero_lt_of_lt room)
  have distinct : (relation.explore second).value.configurations.Nodup :=
    (explore_expanded somewhere).distinct
  have fewer :=
    (List.subperm_of_subset distinct (same.configurations_subset room)).length_le
  rw [StateSpace.configurations, StateSpace.configurations, List.length_map, List.length_map,
    Array.length_toList, Array.length_toList] at fewer
  exact Nat.lt_of_le_of_lt fewer (same.maxStates ▸ room)

/-- Spaces with room that are explored by the same tokens have the same states, marks
included. -/
theorem SameTokens.states_subset (same : relation.SameTokens first second)
    (room : (relation.explore first).value.states.size < first.maxStates)
    {state : ExploredState α} (member : state ∈ (relation.explore second).value.states) :
    state ∈ (relation.explore first).value.states := by
  have roomToo := same.room room
  have expanded := expanded_of_room room
  have expandedToo := expanded_of_room roomToo
  rw [← same.maxDepth] at expandedToo
  obtain ⟨here, listed, discovery⟩ := same.exists_discovery room member
  have equal := expanded.state_eq expandedToo same.tokens
    (fun configuration => ⟨fun known => same.symm.configurations_subset roomToo known,
      fun known => same.configurations_subset room known⟩) listed member discovery
  exact equal ▸ listed

theorem SameTokens.moves_subset (same : relation.SameTokens first second)
    (room : (relation.explore first).value.states.size < first.maxStates)
    {move : StateSpace.Move α} (member : move ∈ (relation.explore second).value.moves) :
    move ∈ (relation.explore first).value.moves := by
  obtain ⟨origin, listed, shallow, token, letter, target, listedToo, stands, rfl⟩ :=
    (expanded_of_room (same.room room)).mem_moves.mp member
  exact (expanded_of_room room).mem_moves.mpr
    ⟨origin, same.states_subset room listed, same.maxDepth ▸ shallow,
      token, (same.tokens token).mpr letter,
      target, same.states_subset room listedToo, stands, rfl⟩

/-! ## Explorations without repetitions -/

section WithoutRepetitions

variable (relation) (maxDepth maxStates : Nat) (alphabet : List α)

theorem explore_expanded_by (somewhere : maxStates ≠ 0) :
    (relation.explore ⟨maxDepth, maxStates, some alphabet⟩).value.Expanded maxDepth alphabet :=
  explore_expanded (show (⟨maxDepth, maxStates, some alphabet⟩ : Scope α).maxStates ≠ 0
    from somewhere)

theorem discoveries_explore_eraseDups :
    (relation.explore ⟨maxDepth, maxStates, some alphabet.eraseDups⟩).value.discoveries =
      (relation.explore ⟨maxDepth, maxStates, some alphabet⟩).value.discoveries := by
  obtain ⟨number, ended, _⟩ := relation.exists_ended ⟨maxDepth, maxStates, some alphabet⟩
  have same : (relation.survey ⟨maxDepth, maxStates, some alphabet.eraseDups⟩).found number =
      (relation.survey ⟨maxDepth, maxStates, some alphabet⟩).found number :=
    (relation.survey ⟨maxDepth, maxStates, some alphabet⟩).found_reduced number
  have endedToo := ended
  rw [← same] at endedToo
  rw [relation.discoveries_explore _ ended, relation.discoveries_explore _ endedToo, same]

theorem states_explore_eraseDups :
    (relation.explore ⟨maxDepth, maxStates, some alphabet.eraseDups⟩).value.states =
      (relation.explore ⟨maxDepth, maxStates, some alphabet⟩).value.states := by
  by_cases nowhere : maxStates = 0
  · rw [value_explore_nowhere nowhere, value_explore_nowhere nowhere]
  · have expanded := relation.explore_expanded_by maxDepth maxStates alphabet nowhere
    have expandedToo :=
      relation.explore_expanded_by maxDepth maxStates alphabet.eraseDups nowhere
    exact expandedToo.states_eq expanded (fun _ => List.mem_eraseDups)
      (relation.discoveries_explore_eraseDups maxDepth maxStates alphabet)

/-- Whether an entry of the alphabet produces a transition at a state does not depend on the
entries before it. -/
theorem exists_produced :
    ∃ produced : Nat → α → Option (Transition α),
      (∀ number token transition, produced number token = some transition →
        transition.source = number ∧ transition.token = token) ∧
      (relation.explore ⟨maxDepth, maxStates, some alphabet⟩).value.Enumerates alphabet
        produced ∧
      (relation.explore ⟨maxDepth, maxStates, some alphabet.eraseDups⟩).value.Enumerates
        alphabet.eraseDups produced := by
  by_cases nowhere : maxStates = 0
  · refine ⟨fun _ _ => none, nofun, ?_, ?_⟩
    · rw [value_explore_nowhere nowhere, StateSpace.Enumerates]
      simp
    · rw [value_explore_nowhere nowhere, StateSpace.Enumerates]
      simp
  · have expanded := relation.explore_expanded_by maxDepth maxStates alphabet nowhere
    have enumerates :=
      (relation.explore_expanded_by maxDepth maxStates alphabet.eraseDups nowhere).enumerates
    rw [StateSpace.produced?_congr (relation.states_explore_eraseDups maxDepth maxStates alphabet)]
      at enumerates
    refine ⟨_, ?_, expanded.enumerates, enumerates⟩
    intro number token transition listed
    exact StateSpace.of_produced?_eq_some listed

end WithoutRepetitions

theorem initial_explore (relation : Relation α) (scope : Scope α) :
    (relation.explore scope).value.initial = 0 := by
  by_cases nowhere : scope.maxStates = 0
  · rw [value_explore_nowhere nowhere]
  · exact (explore_initial nowhere).1

/-- An exploration depends on its alphabet through the tokens and the order in which they occur
first. Without the repetitions of the alphabet the states and their numbers are the same; the
transitions, of which each entry of the alphabet produces at most one at each state, are those
that the first occurrences produce, so that of equal ones the first is left. Explorations by the
same tokens in any order list the same states, with the same depths and marks, and the same
transitions between their configurations, if one of them has room for a further state. -/
theorem explore_depends_on_tokens (relation : Relation α) (maxDepth maxStates : Nat) :
    let explored := fun alphabet =>
      (relation.explore ⟨maxDepth, maxStates, some alphabet⟩).value
    (∀ alphabet : List α,
      let full := explored alphabet
      let reduced := explored alphabet.eraseDups
      reduced.states = full.states ∧ reduced.initial = full.initial ∧
      (∃ produced : Nat → α → Option (Transition α),
        (∀ number token transition, produced number token = some transition →
          transition.source = number ∧ transition.token = token) ∧
        full.Enumerates alphabet produced ∧
        reduced.Enumerates alphabet.eraseDups produced) ∧
      reduced.transitions.toList = full.transitions.toList.eraseDups) ∧
    (∀ alphabet other : List α, (∀ token, token ∈ alphabet ↔ token ∈ other) →
      (explored alphabet).states.size < maxStates →
      (∀ state, state ∈ (explored alphabet).states ↔ state ∈ (explored other).states) ∧
      (∀ move, move ∈ (explored alphabet).moves ↔ move ∈ (explored other).moves)) := by
  intro explored
  constructor
  · intro alphabet full reduced
    have states := relation.states_explore_eraseDups maxDepth maxStates alphabet
    have production := relation.exists_produced maxDepth maxStates alphabet
    refine ⟨states, ?_, production, ?_⟩
    · exact (relation.initial_explore _).trans (relation.initial_explore _).symm
    · obtain ⟨produced, origin, enumerates, fewer⟩ := production
      exact enumerates.eraseDups origin fewer states
  · intro alphabet other tokens room
    have same : relation.SameTokens ⟨maxDepth, maxStates, some alphabet⟩
        ⟨maxDepth, maxStates, some other⟩ :=
      ⟨rfl, rfl, tokens⟩
    have roomToo := same.room room
    constructor
    · intro state
      exact ⟨same.symm.states_subset roomToo, same.states_subset room⟩
    · intro move
      exact ⟨same.symm.moves_subset roomToo, same.moves_subset room⟩

/-- Exploring `0|1` by `0`, `1` and again `0`, and by `1` and `0`: the numbers differ, and the
states and what leads from one to another do not. -/
theorem explore_of_digits_in_any_order :
    let relation : Relation Nat := ⟨"digits", .union (.token 0) (.token 1)⟩
    let first := (relation.explore ⟨8, 1024, some [0, 1, 0]⟩).value
    let second := (relation.explore ⟨8, 1024, some [1, 0]⟩).value
    (∀ token, token ∈ [0, 1, 0] ↔ token ∈ [1, 0]) ∧ first.states.size < 1024 ∧
      first.discoveries ≠ second.discoveries ∧
      (∀ state, state ∈ first.states ↔ state ∈ second.states) ∧
      (∀ move, move ∈ first.moves ↔ move ∈ second.moves) := by
  intro relation first second
  have tokens : ∀ token, token ∈ [0, 1, 0] ↔ token ∈ [1, 0] := by
    intro token
    simp [or_comm]
  have ended : ((relation.survey ⟨8, 1024, some [0, 1, 0]⟩).found 4).length ≤ 4 := by
    decide +kernel
  have endedToo : ((relation.survey ⟨8, 1024, some [1, 0]⟩).found 4).length ≤ 4 := by
    decide +kernel
  have found : first.discoveries = (relation.survey ⟨8, 1024, some [0, 1, 0]⟩).found 4 :=
    relation.discoveries_explore _ ended
  have foundToo : second.discoveries = (relation.survey ⟨8, 1024, some [1, 0]⟩).found 4 :=
    relation.discoveries_explore _ endedToo
  have room : first.states.size < 1024 := by
    rw [← first.length_discoveries, found]
    exact Nat.lt_of_le_of_lt ended (by decide)
  have different : first.discoveries ≠ second.discoveries := by
    rw [found, foundToo]
    decide +kernel
  obtain ⟨states, moves⟩ :=
    (explore_depends_on_tokens relation 8 1024).2 [0, 1, 0] [1, 0] tokens room
  exact ⟨tokens, room, different, states, moves⟩

end Relation

end Residual
