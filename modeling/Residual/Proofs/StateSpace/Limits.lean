import Residual.Proofs.StateSpace.Transitions

/-!
# Explorations with smaller limits

Two explorations by the same tokens make the same discoveries in the same order until the one
with the smaller limits comes to one of them. From there on it lists nothing more: a full list
takes nothing in, and behind a state that is too deep there are only states as deep. Its list
is therefore the beginning of the other one, and as transitions follow from the list of states,
the smaller space is the larger one seen from the states that both have.
-/

namespace Residual

universe u

variable {α : Type u}

/-! ## Surveys with smaller limits -/

namespace Discovery

variable [DecidableEq α]

/-- Lists with different room are the same as long as there is room in both. -/
theorem enlistAll_eq_or_full {few many : Nat} (le : few ≤ many) (known found : List (Discovery α)) :
    enlistAll few known found = enlistAll many known found ∨
      (few ≤ (enlistAll few known found).length ∧
        enlistAll few known found <+: enlistAll many known found) := by
  induction found generalizing known with
  | nil => exact .inl rfl
  | cons first found ih =>
      by_cases full : few ≤ known.length
      · rw [enlistAll_full full]
        exact .inr ⟨full, prefix_enlistAll many known (first :: found)⟩
      · have room : known.length < few := Nat.lt_of_not_le full
        have same : enlist few known first = enlist many known first := by
          by_cases member : first.configuration ∈ configurations known
          · rw [enlist_known member, enlist_known member]
          · rw [enlist_new member room, enlist_new member (Nat.lt_of_lt_of_le room le)]
        have later := ih (enlist few known first)
        rw [enlistAll, enlistAll, List.foldl_cons, List.foldl_cons, ← same]
        exact later

end Discovery

namespace Survey

variable [DecidableEq α]

/-- A survey by the same tokens with smaller limits. -/
structure Within (small large : Survey α) : Prop where
  start : small.start = large.start
  alphabet : small.alphabet = large.alphabet
  maxDepth : small.maxDepth ≤ large.maxDepth
  maxStates : small.maxStates ≤ large.maxStates

variable {survey small large : Survey α}

/-- A survey that is over finds nothing more. -/
theorem found_eq_of_ended {number later : Nat} (ended : (survey.found number).length ≤ number)
    (le : number ≤ later) : survey.found later = survey.found number := by
  rw [found, found, itinerary_eq_of_le ended le]

/-- A state that is too deep offers nothing. -/
theorem found_succ_of_deep {number : Nat} {origin : Discovery α}
    (listed : (survey.found number)[number]? = some origin)
    (deep : survey.maxDepth ≤ origin.depth) :
    survey.found (number + 1) = survey.found number := by
  have stopped : survey.visitsAt number origin = [.stop number] := if_pos deep
  rw [found_succ listed, stopped]
  rfl

/-- Behind a state that is too deep nothing is found. -/
theorem found_eq_of_deep {number later : Nat} {origin : Discovery α}
    (listed : (survey.found number)[number]? = some origin)
    (deep : survey.maxDepth ≤ origin.depth) (le : number ≤ later) :
    survey.found later = survey.found number := by
  induction le with
  | refl => rfl
  | @step later le ih =>
      cases visited : (survey.found later)[later]? with
      | none =>
          have ended := List.getElem?_eq_none_iff.mp visited
          exact (found_succ_of_length_le ended).trans ih
      | some next =>
          have layered : Discovery.Layered survey.maxDepth (survey.found later) :=
            ⟨(survey.inLayers later).sorted, fun _ member => (reaches_of_mem member).2⟩
          have deeper : survey.maxDepth ≤ next.depth := by
            rcases Nat.eq_or_lt_of_le le with same | before
            · subst same
              rw [listed] at visited
              cases visited
              exact deep
            · rw [← ih] at listed
              exact Nat.le_trans deep (layered.depth_le before listed visited)
          exact (found_succ_of_deep visited deeper).trans ih

/-- As long as two surveys have found the same, the next visits are the same too, unless the
smaller survey comes to a limit and has then found all that it will find. -/
theorem Within.agrees_succ (within : small.Within large) {number : Nat}
    (same : small.found number = large.found number) :
    small.found (number + 1) = large.found (number + 1) ∨
      (small.found (number + 1) <+: large.found (number + 1) ∧
        ∀ later, number + 1 ≤ later → small.found later = small.found (number + 1)) := by
  cases listed : (large.found number)[number]? with
  | none =>
      have ended := List.getElem?_eq_none_iff.mp listed
      rw [found_succ_of_length_le ended, ← same]
      rw [← same] at ended
      exact .inl (found_succ_of_length_le ended)
  | some origin =>
      have listedToo : (small.found number)[number]? = some origin := same ▸ listed
      by_cases deep : small.maxDepth ≤ origin.depth
      · have stays : ∀ later, number ≤ later → small.found later = small.found number :=
          fun _ le => found_eq_of_deep listedToo deep le
        refine .inr ⟨?_, ?_⟩
        · rw [stays (number + 1) (Nat.le_succ number), same]
          exact large.prefix_found_succ number
        · intro later le
          rw [stays later (Nat.le_of_succ_le le), stays (number + 1) (Nat.le_succ number)]
      · have shallow : ¬ large.maxDepth ≤ origin.depth :=
          fun tooDeep => deep (Nat.le_trans within.maxDepth tooDeep)
        have visits : small.visitsAt number origin = large.visitsAt number origin := by
          rw [visitsAt, visitsAt, if_neg deep, if_neg shallow, within.alphabet]
        rw [found_succ listed, found_succ listedToo, visits, same]
        rcases Discovery.enlistAll_eq_or_full within.maxStates (large.found number)
          ((large.visitsAt number origin).filterMap Visit.discovery?) with equal | ⟨full, begins⟩
        · exact .inl equal
        · refine .inr ⟨begins, ?_⟩
          intro later le
          rw [← same, ← visits, ← found_succ listedToo] at full ⊢
          exact found_eq_of_full full le

/-- Two surveys find the same until the smaller one has found all that it will find. -/
theorem Within.agrees (within : small.Within large) (number : Nat) :
    small.found number = large.found number ∨
      (small.found number <+: large.found number ∧
        ∀ later, number ≤ later → small.found later = small.found number) := by
  induction number with
  | zero =>
      apply Or.inl
      rw [found, found, itinerary, itinerary, discovered, discovered, within.start]
      rfl
  | succ number ih =>
      rcases ih with same | ⟨begins, stays⟩
      · exact within.agrees_succ same
      · have still := stays (number + 1) (Nat.le_succ number)
        refine .inr ⟨?_, ?_⟩
        · rw [still]
          exact begins.trans (large.prefix_found_succ number)
        · intro later le
          rw [still]
          exact stays later (Nat.le_of_succ_le le)

/-- What a survey finds is the beginning of what one with larger limits finds. -/
theorem Within.prefix_found (within : small.Within large) {first second : Nat}
    (firstEnded : (small.found first).length ≤ first)
    (secondEnded : (large.found second).length ≤ second) :
    small.found first <+: large.found second := by
  have firstLater := found_eq_of_ended firstEnded (Nat.le_max_left first second)
  have secondLater := found_eq_of_ended secondEnded (Nat.le_max_right first second)
  rw [← firstLater, ← secondLater]
  rcases within.agrees (max first second) with same | ⟨begins, _⟩
  · exact same ▸ List.prefix_rfl
  · exact begins

end Survey

/-! ## The smaller space within the larger one -/

/-- A state without its mark. -/
def ExploredState.unmarked (state : ExploredState α) : ExploredState α :=
  { state with truncated := false }

/-- The state at a discovery before it is expanded. -/
def Discovery.state (discovery : Discovery α) : ExploredState α :=
  ⟨discovery.configuration, discovery.configuration.accepting, discovery.depth, false⟩

namespace StateSpace

/-- Whether a transition leads from one of the first states to another, and from one that is
not too deep. -/
def within (space : StateSpace α) (states maxDepth : Nat) (transition : Transition α) : Bool :=
  transition.source < states && transition.target < states &&
    (space.states[transition.source]?).any (·.depth < maxDepth)

theorem within_iff {space : StateSpace α} {states maxDepth : Nat} {transition : Transition α}
    {origin : ExploredState α} (listed : space.states[transition.source]? = some origin) :
    space.within states maxDepth transition = true ↔
      transition.source < states ∧ transition.target < states ∧ origin.depth < maxDepth := by
  simp only [within, listed, Option.any_some, Bool.and_eq_true, decide_eq_true_eq, and_assoc]

variable [DecidableEq α]

/-- Apart from the marks, states are known by their discoveries. -/
theorem Expanded.map_unmarked {maxDepth : Nat} {alphabet : List α} {space : StateSpace α}
    (expanded : space.Expanded maxDepth alphabet) :
    space.states.toList.map ExploredState.unmarked = space.discoveries.map Discovery.state := by
  rw [discoveries, List.map_map]
  apply List.map_congr_left
  intro state member
  rw [ExploredState.unmarked, expanded.accepting state ⟨member⟩]
  rfl

/-- A space whose states are the first ones of another that was explored by the same tokens,
but with a smaller greatest depth. -/
structure Restricts (smallDepth largeDepth : Nat) (alphabet : List α)
    (small large : StateSpace α) : Prop where
  begins : small.discoveries <+: large.discoveries
  expanded : small.Expanded smallDepth alphabet
  expandedFurther : large.Expanded largeDepth alphabet
  depth_le : smallDepth ≤ largeDepth

namespace Restricts

variable {smallDepth largeDepth : Nat} {alphabet : List α} {small large : StateSpace α}

theorem size_le (restricts : Restricts smallDepth largeDepth alphabet small large) :
    small.states.size ≤ large.states.size := by
  have shorter := restricts.begins.length_le
  rw [length_discoveries, length_discoveries] at shorter
  exact shorter

theorem prefix_configurations (restricts : Restricts smallDepth largeDepth alphabet small large) :
    small.configurations <+: large.configurations := by
  rw [configurations_eq, configurations_eq]
  exact restricts.begins.map (·.configuration)

/-- A state of the smaller space stands at the same discovery in the larger one. -/
theorem listed (restricts : Restricts smallDepth largeDepth alphabet small large) {number : Nat}
    {state : ExploredState α} (here : small.states[number]? = some state) :
    ∃ other, large.states[number]? = some other ∧ other.discovery = state.discovery := by
  have known : small.discoveries[number]? = some state.discovery := by
    rw [getElem?_discoveries, here, Option.map_some]
  cases restricts.begins with
  | intro more split =>
      have inside := (List.getElem?_eq_some_iff.mp known).1
      apply exists_listed
      rw [← split, List.getElem?_append_left inside, known]

/-- Of the states of the larger space the first ones are those of the smaller. -/
theorem listed_of_lt (restricts : Restricts smallDepth largeDepth alphabet small large)
    {number : Nat} {other : ExploredState α} (there : large.states[number]? = some other)
    (inside : number < small.states.size) :
    ∃ state, small.states[number]? = some state ∧ other.discovery = state.discovery := by
  have here := Array.getElem?_eq_getElem inside
  cases restricts.listed here with
  | intro common again =>
      rw [there] at again
      cases again.1
      exact ⟨_, here, again.2⟩

/-- Apart from the marks, the states of the smaller space are the first ones of the larger. -/
theorem map_unmarked (restricts : Restricts smallDepth largeDepth alphabet small large) :
    small.states.toList.map ExploredState.unmarked =
      (large.states.toList.take small.states.size).map ExploredState.unmarked := by
  have beginning := List.prefix_iff_eq_take.mp restricts.begins
  rw [length_discoveries] at beginning
  rw [List.map_take, restricts.expanded.map_unmarked, restricts.expandedFurther.map_unmarked,
    ← List.map_take, ← beginning]

/-- Whether a state accepts is the same in both spaces. -/
theorem accepting_eq (restricts : Restricts smallDepth largeDepth alphabet small large)
    {number : Nat} {state other : ExploredState α} (here : small.states[number]? = some state)
    (there : large.states[number]? = some other) (same : other.discovery = state.discovery) :
    other.accepting = state.accepting := by
  rw [restricts.expanded.accepting state (Array.mem_of_getElem? here),
    restricts.expandedFurther.accepting other (Array.mem_of_getElem? there)]
  exact congrArg (fun discovery => discovery.configuration.accepting) same

/-- A derivation from a common state that is not too deep is a transition of the smaller space
if it is one of the larger space between common states. -/
theorem filter_transition? (restricts : Restricts smallDepth largeDepth alphabet small large)
    {number : Nat} {state other : ExploredState α} (here : small.states[number]? = some state)
    (there : large.states[number]? = some other) (same : other.discovery = state.discovery)
    (shallow : state.depth < smallDepth) (token : α) :
    (large.transition? number other token).filter (large.within small.states.size smallDepth) =
      small.transition? number state token := by
  have configuration : other.derivative token = state.derivative token := by
    rw [ExploredState.derivative_eq, same, ← ExploredState.derivative_eq]
  have depth : other.depth = state.depth := congrArg Discovery.depth same
  apply Option.ext
  intro transition
  rw [Option.filter_eq_some_iff, restricts.expandedFurther.transition?_eq_some_iff,
    restricts.expanded.transition?_eq_some_iff, configuration]
  constructor
  · rintro ⟨⟨source, byToken, target, listed, stands, flag⟩, between⟩
    rw [within_iff (source ▸ there)] at between
    obtain ⟨common, listedToo, sameTarget⟩ := restricts.listed_of_lt listed between.2.1
    refine ⟨source, byToken, common, listedToo, ?_, ?_⟩
    · rw [← stands]
      exact (congrArg Discovery.configuration sameTarget).symm
    · rw [flag]
      exact restricts.accepting_eq listedToo listed sameTarget
  · rintro ⟨source, byToken, target, listed, stands, flag⟩
    obtain ⟨common, listedToo, sameTarget⟩ := restricts.listed listed
    refine ⟨⟨source, byToken, common, listedToo, ?_, ?_⟩, ?_⟩
    · rw [← stands]
      exact congrArg Discovery.configuration sameTarget
    · rw [flag]
      exact (restricts.accepting_eq listed listedToo sameTarget).symm
    · rw [within_iff (source ▸ there), source, depth]
      exact ⟨(Array.getElem?_eq_some_iff.mp here).1, (Array.getElem?_eq_some_iff.mp listed).1,
        shallow⟩

/-- What leaves a common state in the smaller space leads from there in the larger one to
another common state. -/
theorem filter_leaving (restricts : Restricts smallDepth largeDepth alphabet small large)
    {number : Nat} (inside : number < small.states.size) :
    (large.leaving largeDepth alphabet number).filter
        (large.within small.states.size smallDepth) =
      small.leaving smallDepth alphabet number := by
  have here := Array.getElem?_eq_getElem inside
  obtain ⟨other, there, same⟩ := restricts.listed here
  have depth : other.depth = small.states[number].depth := congrArg Discovery.depth same
  by_cases deep : smallDepth ≤ small.states[number].depth
  · have nothing : small.leaving smallDepth alphabet number = [] := by
      rw [leaving, here]
      exact if_pos deep
    rw [nothing]
    apply List.filter_eq_nil_iff.mpr
    intro transition member between
    have source := source_of_mem_leaving member
    rw [within_iff (source ▸ there), depth] at between
    exact Nat.not_lt.mpr deep between.2.2
  · have shallow : small.states[number].depth < smallDepth := Nat.lt_of_not_le deep
    have shallowToo : ¬ largeDepth ≤ other.depth := by
      rw [depth]
      exact Nat.not_le.mpr (Nat.lt_of_lt_of_le shallow restricts.depth_le)
    rw [leaving, leaving, here, there]
    simp only [if_neg deep, if_neg shallowToo, List.filter_filterMap]
    apply List.filterMap_congr
    intro token _
    exact restricts.filter_transition? here there same shallow token

/-- The transitions of the smaller space are those of the larger one between common states,
unless they leave one that is too deep. -/
theorem transitions_eq (restricts : Restricts smallDepth largeDepth alphabet small large) :
    small.transitions.toList =
      large.transitions.toList.filter (large.within small.states.size smallDepth) := by
  obtain ⟨more, size⟩ := Nat.exists_eq_add_of_le restricts.size_le
  have common : (List.range small.states.size).flatMap (fun number =>
      (large.leaving largeDepth alphabet number).filter
        (large.within small.states.size smallDepth)) =
      (List.range small.states.size).flatMap (small.leaving smallDepth alphabet) := by
    apply List.flatMap_congr
    intro number member
    exact restricts.filter_leaving (List.mem_range.mp member)
  have further : ((List.range more).map (small.states.size + ·)).flatMap (fun number =>
      (large.leaving largeDepth alphabet number).filter
        (large.within small.states.size smallDepth)) = [] := by
    apply List.flatMap_eq_nil_iff.mpr
    intro number member
    apply List.filter_eq_nil_iff.mpr
    intro transition leaves between
    rw [within, source_of_mem_leaving leaves] at between
    obtain ⟨position, _, same⟩ := List.mem_map.mp member
    simp only [Bool.and_eq_true, decide_eq_true_eq] at between
    have inside := between.1.1
    rw [← same] at inside
    exact Nat.not_lt.mpr (Nat.le_add_right _ position) inside
  rw [restricts.expanded.grouped.transitions, restricts.expandedFurther.grouped.transitions, size,
    List.filter_flatMap, List.range_add, List.flatMap_append, common, further, List.append_nil]

/-- A common state that is truncated in the larger space is so in the smaller one. -/
theorem truncated (restricts : Restricts smallDepth largeDepth alphabet small large)
    {number : Nat} {state other : ExploredState α} (here : small.states[number]? = some state)
    (there : large.states[number]? = some other) (cut : other.truncated = true) :
    state.truncated = true := by
  obtain ⟨_, again, same⟩ := restricts.listed here
  rw [there] at again
  cases again
  rw [restricts.expanded.truncated_iff here]
  rw [restricts.expandedFurther.truncated_iff there] at cut
  cases cut with
  | inl deep =>
      have depth : other.depth = state.depth := congrArg Discovery.depth same
      rw [depth] at deep
      exact .inl (Nat.le_trans restricts.depth_le deep)
  | inr missing =>
      obtain ⟨token, letter, missed⟩ := missing
      have configuration : other.derivative token = state.derivative token := by
        rw [ExploredState.derivative_eq, same, ← ExploredState.derivative_eq]
      refine .inr ⟨token, letter, ?_⟩
      intro known
      rw [configuration] at missed
      exact missed (restricts.prefix_configurations.subset known)

end Restricts

end StateSpace

/-! ## Explorations -/

/-- A scope with the same alphabet and smaller limits. -/
structure Scope.Within (small large : Scope α) : Prop where
  alphabet : small.alphabet = large.alphabet
  maxDepth : small.maxDepth ≤ large.maxDepth
  maxStates : small.maxStates ≤ large.maxStates

namespace Relation

variable [DecidableEq α] [Hashable α]

theorem explorationAlphabet_eq (relation : Relation α) {small large : Scope α}
    (within : small.Within large) :
    relation.explorationAlphabet small = relation.explorationAlphabet large := by
  rw [explorationAlphabet, explorationAlphabet, within.alphabet]

/-- Exploring within smaller limits restricts the space. -/
theorem explore_restricts (relation : Relation α) {small large : Scope α}
    (somewhere : small.maxStates ≠ 0) (within : small.Within large) :
    StateSpace.Restricts small.maxDepth large.maxDepth (relation.explorationAlphabet small)
      (relation.explore small).value (relation.explore large).value where
  begins := by
    have surveys : (relation.survey small).Within (relation.survey large) :=
      ⟨rfl, relation.explorationAlphabet_eq within, within.maxDepth, within.maxStates⟩
    obtain ⟨first, firstEnded, found⟩ := relation.exists_ended small
    obtain ⟨second, secondEnded, foundFurther⟩ := relation.exists_ended large
    rw [StateSpace.discoveries, StateSpace.discoveries, found, foundFurther]
    exact surveys.prefix_found firstEnded secondEnded
  expanded := explore_expanded somewhere
  expandedFurther := by
    rw [relation.explorationAlphabet_eq within]
    have somewhereToo : large.maxStates ≠ 0 := by
      intro nowhere
      exact somewhere (Nat.le_zero.mp (nowhere ▸ within.maxStates))
    exact explore_expanded somewhereToo
  depth_le := within.maxDepth

/-- Raising the limits of an exploration only extends its result. Of the larger space, the
smaller one has the first states, marks aside, and in the same order those transitions that
lead from one of these states to another and leave one less deep than the smaller limit. A
state of both that is truncated in the larger space is truncated in the smaller one. -/
theorem explore_extends (relation : Relation α) {small large : Scope α}
    (somewhere : 1 ≤ small.maxStates) (within : small.Within large) :
    let smaller := (relation.explore small).value
    let larger := (relation.explore large).value
    let size := smaller.states.size
    smaller.states.toList.map ExploredState.unmarked =
      (larger.states.toList.take size).map ExploredState.unmarked ∧
    smaller.transitions.toList =
      larger.transitions.toList.filter (larger.within size small.maxDepth) ∧
    ∀ (number : Nat) (state other : ExploredState α), smaller.states[number]? = some state →
      larger.states[number]? = some other → other.truncated = true → state.truncated = true := by
  intro smaller larger size
  have restricts := relation.explore_restricts (Nat.one_le_iff_ne_zero.mp somewhere) within
  refine ⟨restricts.map_unmarked, restricts.transitions_eq, ?_⟩
  intro number state other here there cut
  exact restricts.truncated here there cut

/-- Exploring `0*` by `0` and `1` with room for two states of depth one, and with room for four
of depth two. In the larger space it is the room that truncates the second state, in the
smaller one its depth. -/
theorem explore_extends_of_zeros :
    let relation : Relation Nat := ⟨"zeros", .star (.token 0)⟩
    let small : Scope Nat := ⟨1, 2, some [0, 1]⟩
    let large : Scope Nat := ⟨2, 4, some [0, 1]⟩
    let smaller := (relation.explore small).value
    let larger := (relation.explore large).value
    1 ≤ small.maxStates ∧ small.Within large ∧
      smaller.states.size = 2 ∧ larger.states.size = 4 ∧
      smaller.states.toList.map ExploredState.unmarked =
        (larger.states.toList.take 2).map ExploredState.unmarked ∧
      smaller.transitions.toList = larger.transitions.toList.filter (larger.within 2 1) ∧
      ∃ state other, smaller.states[1]? = some state ∧ larger.states[1]? = some other ∧
        other.truncated = true ∧ state.truncated = true := by
  intro relation small large smaller larger
  let second : Discovery Nat := ⟨⟨.concat .epsilon (.star (.token 0))⟩, 1⟩
  have somewhere : 1 ≤ small.maxStates := by decide
  have within : small.Within large := ⟨rfl, by decide, by decide⟩
  have ended : ((relation.survey small).found 2).length ≤ 2 := by decide +kernel
  have endedFurther : ((relation.survey large).found 4).length ≤ 4 := by decide +kernel
  have found : smaller.discoveries = (relation.survey small).found 2 :=
    relation.discoveries_explore small ended
  have foundFurther : larger.discoveries = (relation.survey large).found 4 :=
    relation.discoveries_explore large endedFurther
  have size : smaller.states.size = 2 := by
    rw [← smaller.length_discoveries, found]
    decide +kernel
  have sizeFurther : larger.states.size = 4 := by
    rw [← larger.length_discoveries, foundFurther]
    decide +kernel
  have here : ∃ state, smaller.states[1]? = some state ∧ state.discovery = second := by
    apply StateSpace.exists_listed
    rw [found]
    decide +kernel
  have there : ∃ other, larger.states[1]? = some other ∧ other.discovery = second := by
    apply StateSpace.exists_listed
    rw [foundFurther]
    decide +kernel
  obtain ⟨state, listed, _⟩ := here
  obtain ⟨other, listedFurther, atSecond⟩ := there
  have missing : other.derivative 1 ∉ larger.configurations := by
    rw [larger.configurations_eq, foundFurther, other.derivative_eq, atSecond]
    decide +kernel
  have expanded : larger.Expanded 2 [0, 1] :=
    explore_expanded (show large.maxStates ≠ 0 by decide)
  have cut : other.truncated = true :=
    (expanded.truncated_iff listedFurther).mpr (.inr ⟨1, by decide, missing⟩)
  obtain ⟨states, transitions, truncated⟩ := explore_extends relation somewhere within
  rw [size] at states transitions
  exact ⟨somewhere, within, size, sizeFurther, states, transitions, state, other, listed,
    listedFurther, cut, truncated 1 state other listed listedFurther cut⟩

end Relation

end Residual
