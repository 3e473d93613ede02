import Residual.Proofs.StateSpace.Survey

/-!
# What a search has found

A search is described by the visits it has made so far: they determine the states, the
transitions and the truncation marks. The description holds at the start and is kept by
each derivation that is recorded, hence by the expansion of a state and by the whole run.
In the end the visits are those of the survey, to all listed states in the order of their
numbers.
-/

namespace Residual

universe u

variable {α : Type u}

/-- What was discovered at a state, without the marks. -/
def ExploredState.discovery (state : ExploredState α) : Discovery α :=
  ⟨state.configuration, state.depth⟩

namespace StateTable

variable [DecidableEq α] [Hashable α]

/-- The discoveries in the order of their numbers. -/
def discoveries (table : StateTable α) : List (Discovery α) :=
  table.toList.map ExploredState.discovery

@[simp] theorem configurations_discoveries (table : StateTable α) :
    Discovery.configurations table.discoveries = table.configurations :=
  List.map_map

@[simp] theorem length_discoveries (table : StateTable α) :
    table.discoveries.length = table.size :=
  List.length_map _

@[simp] theorem length_configurations (table : StateTable α) :
    table.configurations.length = table.size :=
  List.length_map _

theorem getElem?_discoveries {table : StateTable α} {number : Nat} (inside : number < table.size) :
    table.discoveries[number]? = some table.states[number].discovery := by
  rw [discoveries, List.getElem?_map, toList, Array.getElem?_toList,
    Array.getElem?_eq_getElem inside]
  rfl

@[simp] theorem discoveries_add (table : StateTable α) (state : ExploredState α)
    (absent : table.find? state.configuration = none) :
    (table.add state absent).discoveries = table.discoveries ++ [state.discovery] := by
  rw [discoveries, toList_add, List.map_append]
  rfl

theorem configurations_add (table : StateTable α) (state : ExploredState α)
    (absent : table.find? state.configuration = none) :
    (table.add state absent).configurations =
      table.configurations ++ [state.configuration] := by
  rw [← configurations_discoveries, discoveries_add, Discovery.configurations_append,
    configurations_discoveries]
  rfl

/-- A new configuration gets the next number. -/
theorem find?_add_self (table : StateTable α) (state : ExploredState α)
    (absent : table.find? state.configuration = none) :
    (table.add state absent).find? state.configuration = some table.size := by
  rw [find?_eq_some, configurations_add, ← length_configurations, List.getElem?_concat_length]

@[simp] theorem discoveries_truncate (table : StateTable α) (number : Nat) :
    (table.truncate number).discoveries = table.discoveries := by
  apply List.ext_getElem?
  intro position
  simp only [discoveries, toList_truncate, List.getElem?_map, List.getElem?_modify]
  cases table.toList[position]? with
  | none => rfl
  | some state =>
      simp only [Option.map_eq_map, Option.map_some]
      split <;> rfl

/-- The number of a configuration is that of the state where it stands. -/
theorem find?_eq_some_iff {table : StateTable α} {configuration : Configuration α}
    {number : Nat} :
    table.find? configuration = some number ↔
      ∃ state, table.toList[number]? = some state ∧ state.configuration = configuration := by
  rw [find?_eq_some, configurations, List.getElem?_map, Option.map_eq_some_iff]

end StateTable

namespace Search

variable [DecidableEq α] [Hashable α]

/-- A search for a survey that has made these visits and has still to expand the states
from `next` on. -/
structure Traces (survey : Survey α) (next : Nat) (made : List (Visit α))
    (search : Search α) : Prop where
  discoveries : search.table.discoveries = survey.discovered made
  states : ∀ number state, search.table.toList[number]? = some state →
    state.accepting = state.configuration.accepting ∧
      (state.truncated = true ↔
        ∃ visit ∈ made, visit.source = number ∧ visit.Misses search.table.configurations)
  transitions : search.transitions.toList =
    made.filterMap (Visit.transition? search.table.configurations)
  sources : ∀ visit ∈ made, visit.source < search.table.size
  unexpanded : next ≤ search.table.size
  pending : search.pending.toList = List.range' next (search.table.size - next)

/-- A search begins without having visited a state. -/
theorem traces_start (survey : Survey α) : (start survey.start).Traces survey 0 [] where
  discoveries := rfl
  states := by
    intro number state found
    have member := List.mem_of_getElem? found
    rw [start, StateTable.toList_add, StateTable.toList_empty, List.nil_append,
      List.mem_singleton] at member
    subst member
    simp
  transitions := rfl
  sources := nofun
  unexpanded := Nat.zero_le _
  pending := rfl

variable {survey : Survey α} {next : Nat} {made : List (Visit α)} {search : Search α}

/-- As long as there is room for states, no visit has been turned away. -/
theorem Traces.settled (traced : search.Traces survey next made)
    (room : search.table.size < survey.maxStates) :
    ∀ visit ∈ made, visit.Settled search.table.configurations := by
  intro visit member
  have either := @Survey.mem_or_full_discovered _ _ survey _ _ member
  rw [← traced.discoveries, StateTable.configurations_discoveries,
    StateTable.length_discoveries] at either
  exact either.resolve_right (Nat.not_le.mpr room)

/-- Further visits leave the discoveries in their places. -/
theorem Traces.kept (traced : search.Traces survey next made) {later : Search α}
    {more : List (Visit α)} {nextLater : Nat}
    (extended : later.Traces survey nextLater (made ++ more)) :
    search.table.discoveries <+: later.table.discoveries := by
  rw [traced.discoveries, extended.discoveries]
  exact survey.prefix_discovered made more

theorem Traces.size_le (traced : search.Traces survey next made)
    {later : Search α} {more : List (Visit α)} {nextLater : Nat}
    (extended : later.Traces survey nextLater (made ++ more)) :
    search.table.size ≤ later.table.size := by
  have shorter := (traced.kept extended).length_le
  rw [StateTable.length_discoveries, StateTable.length_discoveries] at shorter
  exact shorter

/-- A further visit to a listed state keeps all visits to listed states. -/
theorem Traces.sources_concat (traced : search.Traces survey next made)
    {visit : Visit α} (inside : visit.source < search.table.size) :
    ∀ other ∈ made ++ [visit], other.source < search.table.size := by
  intro other member
  rcases List.mem_append.mp member with old | new
  · exact traced.sources other old
  · rw [List.mem_singleton.mp new]
    exact inside

/-! ## Recording a derivation -/

/-- A visit that reaches no known configuration, and for which there is no room if it
discovers one, truncates its state and does nothing else. -/
theorem Traces.miss (traced : search.Traces survey next made) {visit : Visit α}
    (inside : visit.source < search.table.size)
    (missed : visit.Misses search.table.configurations)
    (unlisted : visit.discovery? = none ∨ survey.maxStates ≤ search.table.size) :
    (search.truncate visit.source).Traces survey next (made ++ [visit]) where
  discoveries := by
    rw [truncate, StateTable.discoveries_truncate, traced.discoveries]
    cases found : visit.discovery? with
    | none => rw [Survey.discovered_concat_none found]
    | some discovery =>
        rcases unlisted with nothing | full
        · rw [nothing] at found
          cases found
        · rw [← StateTable.length_discoveries, traced.discoveries] at full
          rw [Survey.discovered_concat_some found, Discovery.enlist_full discovery full]
  states := by
    intro number state found
    rw [Visit.exists_misses_concat]
    simp only [truncate, StateTable.toList_truncate, List.getElem?_modify] at found
    simp only [truncate, StateTable.configurations_truncate]
    cases old : search.table.toList[number]? with
    | none => simp [old] at found
    | some earlier =>
        have known := traced.states number earlier old
        simp only [old, Option.map_eq_map, Option.map_some, Option.some.injEq] at found
        split at found
        · next same =>
            subst found
            exact ⟨known.1, iff_of_true rfl (.inr ⟨same, missed⟩)⟩
        · next other =>
            subst found
            rw [known.2]
            exact ⟨known.1, (or_iff_left fun new => other new.1).symm⟩
  transitions := by
    simp only [truncate, StateTable.configurations_truncate]
    rw [List.filterMap_append, List.filterMap_cons_none (Visit.transition?_eq_none missed),
      List.filterMap_nil, List.append_nil, traced.transitions]
  sources := by
    rw [truncate, StateTable.size_truncate]
    exact traced.sources_concat inside
  unexpanded := by
    rw [truncate, StateTable.size_truncate]
    exact traced.unexpanded
  pending := by
    rw [truncate, StateTable.size_truncate]
    exact traced.pending

/-- A derivation that leads to a known configuration is listed as a transition. -/
theorem Traces.hit (traced : search.Traces survey next made) {source target : Nat}
    {origin : Discovery α} {token : α} (inside : source < search.table.size)
    (found : search.table.find? (origin.after token).configuration = some target) :
    Traces survey next (made ++ [.derive source origin token])
      { search with
        transitions := search.transitions.push
          ⟨source, token, target, (origin.after token).configuration.accepting⟩ } := by
  have known : (origin.after token).configuration ∈ search.table.configurations :=
    List.mem_of_getElem? (StateTable.find?_eq_some.mp found)
  constructor
  case discoveries =>
    rw [← StateTable.configurations_discoveries, traced.discoveries] at known
    rw [Survey.discovered_concat_some rfl, Discovery.enlist_known known]
    exact traced.discoveries
  case states =>
    intro number state listed
    rw [Visit.exists_misses_concat, (traced.states number state listed).2]
    refine ⟨(traced.states number state listed).1, ?_⟩
    exact (or_iff_left fun new => new.2 known).symm
  case transitions =>
    rw [StateTable.find?_eq] at found
    rw [Array.toList_push, List.filterMap_append, traced.transitions]
    simp only [List.filterMap_cons, List.filterMap_nil, Visit.transition?, found,
      Option.map_some]
  case sources => exact traced.sources_concat inside
  case unexpanded => exact traced.unexpanded
  case pending => exact traced.pending

/-- A derivation that leads to a new configuration, for which there is room, lists it as
the last state, which is still to be expanded. -/
theorem Traces.grow (traced : search.Traces survey next made) {source : Nat}
    {origin : Discovery α} {token : α} (inside : source < search.table.size)
    (absent : search.table.find? (origin.after token).configuration = none)
    (room : search.table.size < survey.maxStates) {later : Search α}
    (table : later.table = search.table.add
      ⟨(origin.after token).configuration, (origin.after token).configuration.accepting,
        origin.depth + 1, false⟩ absent)
    (transitions : later.transitions = search.transitions.push
      ⟨source, token, search.table.size, (origin.after token).configuration.accepting⟩)
    (pending : later.pending = search.pending.enqueue search.table.size) :
    later.Traces survey next (made ++ [.derive source origin token]) := by
  have new := StateTable.find?_eq_none.mp absent
  have configurations : later.table.configurations =
      search.table.configurations ++ [(origin.after token).configuration] := by
    rw [table, StateTable.configurations_add]
  have reached : ¬ (Visit.derive source origin token).Misses later.table.configurations := by
    intro missed
    rw [configurations] at missed
    exact missed (List.mem_append_right _ List.mem_cons_self)
  constructor
  case discoveries =>
    have last : later.table.discoveries =
        search.table.discoveries ++ [origin.after token] := by
      rw [table, StateTable.discoveries_add]
      rfl
    rw [← StateTable.configurations_discoveries, traced.discoveries] at new
    rw [← StateTable.length_discoveries, traced.discoveries] at room
    rw [Survey.discovered_concat_some rfl, Discovery.enlist_new new room, last,
      traced.discoveries]
  case states =>
    intro number state listed
    rw [table, StateTable.toList_add] at listed
    rw [Visit.exists_misses_concat, or_iff_left fun missed => reached missed.2]
    by_cases old : number < search.table.toList.length
    · rw [List.getElem?_append_left old] at listed
      have known := traced.states number state listed
      -- there is room, so the earlier visits keep what they reached
      rw [configurations, Visit.exists_misses_append (traced.settled room)]
      exact known
    · have bound := (List.getElem?_eq_some_iff.mp listed).1
      rw [List.length_append, List.length_singleton] at bound
      have last := Nat.le_antisymm (Nat.le_of_lt_succ bound) (Nat.not_lt.mp old)
      rw [last, List.getElem?_concat_length] at listed
      cases listed
      refine ⟨rfl, iff_of_false nofun ?_⟩
      intro cut
      rcases cut with ⟨visit, member, source, _⟩
      exact old (source ▸ traced.sources visit member)
  case transitions =>
    have kept := Visit.filterMap_transition?_append (traced.settled room)
      [(origin.after token).configuration]
    rw [← configurations] at kept
    have number : later.table.find? (origin.after token).configuration =
        some search.table.size := by
      rw [table]
      exact search.table.find?_add_self _ absent
    rw [StateTable.find?_eq] at number
    rw [transitions, Array.toList_push, List.filterMap_append, kept, traced.transitions]
    simp only [List.filterMap_cons, List.filterMap_nil, Visit.transition?, number,
      Option.map_some]
  case sources =>
    intro other member
    rw [table, StateTable.size_add]
    have inside : (Visit.derive source origin token).source < search.table.size := inside
    exact Nat.lt_succ_of_lt (traced.sources_concat inside other member)
  case unexpanded =>
    rw [table, StateTable.size_add]
    exact Nat.le_succ_of_le traced.unexpanded
  case pending =>
    rw [pending, table, StateTable.size_add, Queue.toList_enqueue, traced.pending,
      Nat.sub_add_comm traced.unexpanded, List.range'_1_concat,
      Nat.add_sub_cancel' traced.unexpanded]

/-- Recording what a derivation leads to is a visit. -/
theorem Traces.record (traced : search.Traces survey next made) {source : Nat}
    (origin : Discovery α) (token : α) (inside : source < search.table.size) :
    (search.record survey.maxStates source (origin.depth + 1) token
      ⟨(origin.after token).configuration.accepting, (origin.after token).configuration⟩).Traces
      survey next (made ++ [.derive source origin token]) := by
  rw [Search.record]
  split
  · next target found => exact traced.hit inside found
  · next absent =>
      simp only
      split
      · next room => exact traced.grow inside absent room rfl rfl rfl
      · next full =>
          have missed : (Visit.derive source origin token).Misses
              search.table.configurations :=
            StateTable.find?_eq_none.mp absent
          exact traced.miss inside missed (.inr (Nat.not_lt.mp full))

/-! ## Expanding a state -/

/-- Derivations by several tokens are recorded as so many visits. -/
theorem Traces.record_all (traced : search.Traces survey next made) {source : Nat}
    (relation : Relation α) (origin : Discovery α) (tokens : List α)
    (inside : source < search.table.size) :
    Traces survey next (made ++ tokens.map (.derive source origin))
      (tokens.foldl
        (fun current token => current.record survey.maxStates source (origin.depth + 1) token
          (relation.derive token origin.configuration).value)
        search) := by
  induction tokens generalizing search made with
  | nil =>
      rw [List.map_nil, List.append_nil]
      exact traced
  | cons token tokens ih =>
      have recorded := traced.record origin token inside
      have larger := traced.size_le recorded
      rw [List.map_cons, List.append_cons, List.foldl_cons]
      exact ih recorded (Nat.lt_of_lt_of_le inside larger)

/-- The expansion of a state makes the visits at that state. -/
theorem Traces.expand {relation : Relation α} {scope : Scope α}
    (traced : search.Traces (relation.survey scope) next made) {number : Nat}
    (inside : number < search.table.size) :
    (search.expand relation scope (relation.explorationAlphabet scope) number
      inside).value.Traces (relation.survey scope) next
      (made ++ (relation.survey scope).visitsAt number
        search.table.states[number].discovery) := by
  let origin := search.table.states[number].discovery
  by_cases deep : scope.maxDepth ≤ search.table.states[number].depth
  · have stopped : (relation.survey scope).visitsAt number origin = [.stop number] :=
      if_pos deep
    have missed : (Visit.stop number : Visit α).Misses search.table.configurations := trivial
    have visited : (Visit.stop number : Visit α).source < search.table.size := inside
    rw [Search.expand, stopped]
    simp only [if_pos deep, Logged.value_silent]
    exact traced.miss visited missed (.inl rfl)
  · have derived : (relation.survey scope).visitsAt number origin =
        (relation.explorationAlphabet scope).map (.derive number origin) :=
      if_neg deep
    rw [Search.expand, derived]
    simp only [if_neg deep, Logged.value_follow]
    exact traced.record_all relation origin (relation.explorationAlphabet scope) inside

/-! ## A whole run -/

theorem run_done (relation : Relation α) (scope : Scope α) (alphabet : List α)
    (done : search.pending.dequeue? = none) :
    search.run relation scope alphabet = .silent search := by
  rw [Search.run]
  split
  · rfl
  · next taken =>
      rw [done] at taken
      cases taken

/-- The search without its oldest pending state. -/
def popped (search : Search α) {number : Nat} {rest : Queue Nat}
    (taken : search.pending.dequeue? = some (number, rest)) : Search α :=
  { search with
    pending := rest
    pending_lt := fun other member => search.pending_lt other
      (Queue.toList_of_dequeue? taken ▸ List.mem_cons_of_mem number member) }

theorem popped_inside {number : Nat} {rest : Queue Nat}
    (taken : search.pending.dequeue? = some (number, rest)) :
    number < (search.popped taken).table.size :=
  search.pending_lt number (Queue.toList_of_dequeue? taken ▸ List.mem_cons_self)

/-- A state is taken out of the queue and expanded, and the run goes on. -/
theorem run_next (relation : Relation α) (scope : Scope α) (alphabet : List α)
    {number : Nat} {rest : Queue Nat}
    (taken : search.pending.dequeue? = some (number, rest)) :
    search.run relation scope alphabet =
      ((search.popped taken).expand relation scope alphabet number (popped_inside taken)).andThen
        fun expanded => expanded.run relation scope alphabet := by
  rw [Search.run]
  split
  · next done =>
      rw [done] at taken
      cases taken
  · next again =>
      rw [taken] at again
      cases again
      rfl

/-- A search without pending states has expanded all of them. -/
theorem Traces.ended (traced : search.Traces survey next made)
    (done : search.pending.dequeue? = none) : next = search.table.size := by
  have empty := Queue.dequeue?_eq_none.mp done
  rw [traced.pending, List.range'_eq_nil_iff] at empty
  exact Nat.le_antisymm traced.unexpanded (Nat.sub_eq_zero_iff_le.mp empty)

/-- The oldest pending state is the next one of the survey, and expanding it follows the survey
one state further. -/
theorem Traces.turn {relation : Relation α} {scope : Scope α}
    (traced : search.Traces (relation.survey scope) next
      ((relation.survey scope).itinerary next))
    {number : Nat} {rest : Queue Nat}
    (taken : search.pending.dequeue? = some (number, rest)) :
    number = next ∧
      ((search.popped taken).expand relation scope (relation.explorationAlphabet scope) number
        (popped_inside taken)).value.Traces (relation.survey scope) (next + 1)
        ((relation.survey scope).itinerary (next + 1)) := by
  have queued := (Queue.toList_of_dequeue? taken).symm.trans traced.pending
  have unexpanded : next < search.table.size := by
    apply Nat.lt_of_not_le
    intro all
    rw [Nat.sub_eq_zero_of_le all] at queued
    cases queued
  rw [← Nat.succ_pred_eq_of_pos (Nat.sub_pos_of_lt unexpanded), List.range'_succ] at queued
  rcases List.cons.inj queued with ⟨same, later⟩
  subst same
  have listed : ((relation.survey scope).found number)[number]? =
      some (search.popped taken).table.states[number].discovery := by
    rw [Survey.found, ← traced.discoveries]
    exact StateTable.getElem?_discoveries unexpanded
  have poppedTraced : (search.popped taken).Traces (relation.survey scope) (number + 1)
      ((relation.survey scope).itinerary number) := by
    refine { traced with unexpanded := unexpanded, pending := ?_ }
    exact later.trans (congrArg (List.range' (number + 1)) (Nat.sub_succ ..).symm)
  refine ⟨rfl, ?_⟩
  rw [Survey.itinerary_succ listed]
  exact poppedTraced.expand (popped_inside taken)

/-- A run that has followed a survey up to the state `next` follows it to the end. -/
theorem Traces.run {relation : Relation α} {scope : Scope α}
    (traced : search.Traces (relation.survey scope) next
      ((relation.survey scope).itinerary next)) :
    let result := (search.run relation scope (relation.explorationAlphabet scope)).value
    result.Traces (relation.survey scope) result.table.size
      ((relation.survey scope).itinerary result.table.size) := by
  induction search using Search.run.induct relation scope (relation.explorationAlphabet scope)
    generalizing next
  case case1 search done =>
    have last := traced.ended done
    subst last
    rw [run_done relation scope _ done]
    exact traced
  case case2 search number rest taken _ _ _ ih =>
    obtain ⟨rfl, turned⟩ := traced.turn taken
    rw [run_next relation scope _ taken]
    exact ih turned

end Search

end Residual
