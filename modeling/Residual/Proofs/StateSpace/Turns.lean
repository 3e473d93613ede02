import Residual.Proofs.StateSpace.Transitions

/-!
# The turns of an exploration

An exploration is a loop: in each turn the oldest pending state is taken out of the queue and
expanded. The loop is followed here with every step guarded. A state is looked up and marked only
if there is one of that number, and a depth is used only if it is within a bound; otherwise the
turn fails. No turn of an exploration does, and as the pending states are always those behind
the ones expanded so far, the turns take the states one by one in the order of their numbers.

What a turn derives is known from the events it reports: every token of the alphabet once, or
nothing if the state is too deep. So the derivations of an exploration can be listed, and counted,
from the states that it returns.
-/

namespace Residual

universe u

variable {α : Type u} [DecidableEq α] [Hashable α]

namespace Search

/-! ## Guarded turns -/

/-- Records the outcome of a derivation as `record` does, if its source is listed and the depth
behind it is within the bound. -/
def record? (bound maxStates : Nat) (search : Search α) (source depth : Nat) (token : α)
    (outcome : Outcome Bool (Configuration α)) : Option (Search α) :=
  if source < search.table.size ∧ depth ≤ bound then
    some (search.record maxStates source depth token outcome)
  else none

/-- Expands a state as `expand` does, if there is one of that number and all its derivations can
be recorded. -/
def expand? (bound : Nat) (relation : Relation α) (scope : Scope α) (alphabet : List α)
    (search : Search α) (number : Nat) : Option (Search α) :=
  match search.table.states[number]? with
  | none => none
  | some state =>
      if scope.maxDepth ≤ state.depth then some (search.truncate number)
      else
        alphabet.foldlM
          (fun current token =>
            current.record? bound scope.maxStates number (state.depth + 1) token
              (relation.derive token state.configuration).value)
          search

/-- The loop from one search to another at which no state is pending, together with the numbers
that are taken out of the queue on the way. -/
inductive Turns (bound : Nat) (relation : Relation α) (scope : Scope α) (alphabet : List α) :
    Search α → List Nat → Search α → Prop where
  | done {search : Search α} :
      search.pending.dequeue? = none → Turns bound relation scope alphabet search [] search
  | turn {search expanded last : Search α} {number : Nat} {rest : Queue Nat}
      {numbers : List Nat} (taken : search.pending.dequeue? = some (number, rest)) :
      (search.popped taken).expand? bound relation scope alphabet number = some expanded →
        Turns bound relation scope alphabet expanded numbers last →
          Turns bound relation scope alphabet search (number :: numbers) last

variable {search : Search α} {bound : Nat}

/-- No state is lost when a derivation is recorded. -/
theorem size_le_record (search : Search α) (maxStates source depth : Nat) (token : α)
    (outcome : Outcome Bool (Configuration α)) :
    search.table.size ≤ (search.record maxStates source depth token outcome).table.size := by
  unfold record
  split
  · exact Nat.le_refl _
  · simp only
    split
    · simp
    · simp [truncate]

/-- The derivations from a listed state to a depth within the bound can all be recorded. -/
theorem foldlM_record? {source depth maxStates : Nat} (inside : source < search.table.size)
    (fits : depth ≤ bound) (outcome : α → Outcome Bool (Configuration α)) (tokens : List α) :
    tokens.foldlM (fun current token =>
        current.record? bound maxStates source depth token (outcome token)) search =
      some (tokens.foldl (fun current token =>
        current.record maxStates source depth token (outcome token)) search) := by
  induction tokens generalizing search with
  | nil => rfl
  | cons token tokens ih =>
      have allowed : source < search.table.size ∧ depth ≤ bound := ⟨inside, fits⟩
      have still := Nat.lt_of_lt_of_le inside
        (search.size_le_record maxStates source depth token (outcome token))
      rw [List.foldlM_cons, List.foldl_cons, record?, if_pos allowed]
      exact ih still

/-- A listed state can be expanded if the bound is not below the greatest depth. -/
theorem expand?_eq (relation : Relation α) {scope : Scope α} (fits : scope.maxDepth ≤ bound)
    (alphabet : List α) {number : Nat} (inside : number < search.table.size) :
    search.expand? bound relation scope alphabet number =
      some (search.expand relation scope alphabet number inside).value := by
  have listed : search.table.states[number]? = some search.table.states[number] :=
    Array.getElem?_eq_getElem inside
  rw [expand?, listed, expand]
  by_cases deep : scope.maxDepth ≤ search.table.states[number].depth
  · simp only [if_pos deep, Logged.value_silent]
  · have next : search.table.states[number].depth + 1 ≤ bound :=
      Nat.le_trans (Nat.lt_of_not_le deep) fits
    simp only [if_neg deep, Logged.value_follow, Logged.value_map]
    exact foldlM_record? inside next
      (fun token => (relation.derive token search.table.states[number].configuration).value)
      alphabet

variable {relation : Relation α} {scope : Scope α} {next : Nat}

/-- A search whose next state is `next` takes the states from there on in the order of their
numbers, up to the last one. -/
theorem Traces.turns (fits : scope.maxDepth ≤ bound)
    (traced : search.Traces (relation.survey scope) next
      ((relation.survey scope).itinerary next)) :
    let alphabet := relation.explorationAlphabet scope
    let last := (search.run relation scope alphabet).value
    ∃ count, next + count = last.table.size ∧
      Turns bound relation scope alphabet search (List.range' next count) last := by
  intro alphabet
  induction search using Search.run.induct relation scope alphabet generalizing next
  case case1 search done =>
    rw [run_done relation scope alphabet done]
    exact ⟨0, traced.ended done, .done done⟩
  case case2 search number rest taken _ _ _ ih =>
    obtain ⟨rfl, turned⟩ := traced.turn taken
    obtain ⟨count, size, turns⟩ := ih turned
    rw [run_next relation scope alphabet taken, Logged.value_andThen]
    refine ⟨count + 1, ?_, ?_⟩
    · rw [← Nat.add_assoc, Nat.add_right_comm]
      exact size
    · rw [List.range'_succ]
      exact .turn taken (expand?_eq relation fits alphabet (popped_inside taken)) turns

end Search

/-! ## The derivations -/

/-- Whether an event reports a derivation. -/
def Event.isDerivation : Event → Bool
  | .derived .. => true
  | .ignored .. | .parsed _ | .explored .. | .registered _ | .loading .. => false

/-- The derivations from a discovery, as they are reported: one by each token in turn, unless the
discovery is too deep. -/
def Relation.derivations (relation : Relation α) (scope : Scope α) (origin : Discovery α) :
    List Event :=
  if scope.maxDepth ≤ origin.depth then []
  else (relation.explorationAlphabet scope).flatMap fun token =>
    (relation.derive token origin.configuration).events

/-- Steps that report the same wherever they start are reported one after the other. -/
theorem Logged.events_follow {β γ : Type u} {step : γ → β → Logged γ} {events : β → List Event}
    (reported : ∀ current item, (step current item).events = events item) (start : γ)
    (items : List β) : (follow step start items).events = items.flatMap events := by
  induction items generalizing start with
  | nil => rfl
  | cons item items ih => rw [follow, events_andThen, reported, ih, List.flatMap_cons]

namespace Search

variable {search : Search α} {relation : Relation α} {scope : Scope α} {next : Nat}

theorem events_expand {number : Nat} (inside : number < search.table.size) :
    (search.expand relation scope (relation.explorationAlphabet scope) number inside).events =
      relation.derivations scope search.table.states[number].discovery := by
  rw [expand, Relation.derivations]
  by_cases deep : scope.maxDepth ≤ search.table.states[number].depth
  · have tooDeep : scope.maxDepth ≤ search.table.states[number].discovery.depth := deep
    simp only [if_pos deep, if_pos tooDeep, Logged.events_silent]
  · have shallow : ¬ scope.maxDepth ≤ search.table.states[number].discovery.depth := deep
    simp only [if_neg deep, if_neg shallow]
    refine Logged.events_follow ?_ search _
    intro current token
    rfl

/-- What is listed keeps its place until the end of the run. -/
theorem Traces.getElem?_run
    (traced : search.Traces (relation.survey scope) next
      ((relation.survey scope).itinerary next))
    {number : Nat} (inside : number < search.table.size) :
    let run := search.run relation scope (relation.explorationAlphabet scope)
    run.value.table.discoveries[number]? = some search.table.states[number].discovery := by
  intro run
  obtain ⟨count, size, _⟩ := traced.turns (Nat.le_refl scope.maxDepth)
  have kept : search.table.discoveries <+: run.value.table.discoveries := by
    rw [traced.discoveries, traced.run.discoveries]
    exact (relation.survey scope).prefix_found (size ▸ Nat.le_add_right next count)
  obtain ⟨long, here⟩ := List.getElem?_eq_some_iff.mp (StateTable.getElem?_discoveries inside)
  exact List.getElem?_eq_some_iff.mpr
    ⟨Nat.lt_of_lt_of_le long kept.length_le, (kept.getElem long).symm.trans here⟩

/-- A search whose next state is `next` derives the states from there on, one after the other. -/
theorem Traces.events_run
    (traced : search.Traces (relation.survey scope) next
      ((relation.survey scope).itinerary next)) :
    let run := search.run relation scope (relation.explorationAlphabet scope)
    run.events = (run.value.table.discoveries.drop next).flatMap (relation.derivations scope) := by
  intro run
  induction search using Search.run.induct relation scope (relation.explorationAlphabet scope)
    generalizing next
  case case1 search done =>
    have none : search.table.discoveries.drop next = [] := by
      rw [traced.ended done, ← StateTable.length_discoveries, List.drop_length]
    simp only [run, run_done relation scope _ done, Logged.value_silent, none, List.flatMap_nil,
      Logged.events_silent]
  case case2 search number rest taken _ _ _ ih =>
    obtain ⟨rfl, turned⟩ := traced.turn taken
    have inside : number < search.table.size := popped_inside taken
    obtain ⟨long, here⟩ := List.getElem?_eq_some_iff.mp (traced.getElem?_run inside)
    have first : run.value.table.discoveries.drop number =
        search.table.states[number].discovery ::
          run.value.table.discoveries.drop (number + 1) := by
      rw [List.drop_eq_getElem_cons long, here]
    rw [first, List.flatMap_cons]
    simp only [run, run_next relation scope _ taken, Logged.events_andThen, Logged.value_andThen]
    rw [events_expand]
    exact congrArg _ (ih turned)

end Search

/-! ## Counting derivations -/

/-- As many derivations are reported as there are tokens, unless the discovery is too deep. -/
theorem Relation.countP_derivations (relation : Relation α) (scope : Scope α)
    (origin : Discovery α) :
    (relation.derivations scope origin).countP Event.isDerivation =
      if origin.depth < scope.maxDepth then (relation.explorationAlphabet scope).length else 0 := by
  rw [derivations]
  by_cases shallow : origin.depth < scope.maxDepth
  · rw [if_pos shallow, if_neg (Nat.not_le.mpr shallow)]
    induction relation.explorationAlphabet scope with
    | nil => rfl
    | cons token tokens ih =>
        have once : (relation.derive token origin.configuration).events.countP
            Event.isDerivation = 1 := rfl
        rw [List.flatMap_cons, List.countP_append, once, ih, List.length_cons, Nat.add_comm]
  · rw [if_neg shallow, if_pos (Nat.le_of_not_lt shallow)]
    rfl

/-- All together there are as many as there are pairs of a token and a discovery that is not
too deep. -/
theorem Relation.countP_flatMap_derivations (relation : Relation α) (scope : Scope α)
    (origins : List (Discovery α)) :
    (origins.flatMap (relation.derivations scope)).countP Event.isDerivation =
      (relation.explorationAlphabet scope).length *
        origins.countP (fun origin => origin.depth < scope.maxDepth) := by
  induction origins with
  | nil => rfl
  | cons origin origins ih =>
      rw [List.flatMap_cons, List.countP_append, ih, countP_derivations, List.countP_cons,
        Nat.mul_add, Nat.add_comm]
      by_cases shallow : origin.depth < scope.maxDepth
      · simp [shallow]
      · simp [shallow]

omit [DecidableEq α] [Hashable α] in
theorem StateSpace.countP_discoveries (space : StateSpace α) (maxDepth : Nat) :
    space.discoveries.countP (fun origin => origin.depth < maxDepth) =
      space.states.toList.countP (fun state => state.depth < maxDepth) :=
  List.countP_map

/-! ## Whole explorations -/

omit [Hashable α] in
/-- No more discoveries are listed than there is room for. -/
theorem Discovery.length_enlistAll_le {maxStates : Nat} {known : List (Discovery α)}
    (room : known.length ≤ maxStates) (found : List (Discovery α)) :
    (enlistAll maxStates known found).length ≤ maxStates := by
  apply enlistAll_induction (motive := fun listed => listed.length ≤ maxStates) room
  intro listed still discovery _
  rw [enlist]
  split
  · exact still
  · next new =>
      rw [List.length_append]
      exact Nat.lt_of_not_le (not_or.mp new).2

namespace Relation

variable (relation : Relation α) (scope : Scope α)

theorem size_explore_le (somewhere : 1 ≤ scope.maxStates) :
    (relation.explore scope).value.states.size ≤ scope.maxStates := by
  obtain ⟨number, _, listed⟩ := relation.exists_ended scope
  rw [← StateSpace.length_discoveries, StateSpace.discoveries, listed]
  exact Discovery.length_enlistAll_le somewhere _

/-- An exploration is a run, and reports its result at the end. -/
theorem explore_eq_run (somewhere : scope.maxStates ≠ 0) :
    let run := (Search.start relation.start).run relation scope
      (relation.explorationAlphabet scope)
    (relation.explore scope).value = run.value.space ∧
      (relation.explore scope).events = run.events ++
        [.explored relation.name run.value.space.states.size
          run.value.space.transitions.size] := by
  rw [explore]
  simp only [if_neg somewhere]
  exact ⟨rfl, rfl⟩

/-- The turns of an exploration go through the listed states. -/
theorem exists_turns (somewhere : scope.maxStates ≠ 0) {bound : Nat}
    (fits : scope.maxDepth ≤ bound) :
    ∃ last, Search.Turns bound relation scope (relation.explorationAlphabet scope)
      (.start relation.start) (List.range (relation.explore scope).value.states.size) last ∧
      (relation.explore scope).value = last.space := by
  have found := (relation.explore_eq_run scope somewhere).1
  obtain ⟨count, size, turns⟩ := (Search.traces_start (relation.survey scope)).turns fits
  rw [Nat.zero_add] at size
  rw [size, ← List.range_eq_range'] at turns
  refine ⟨_, ?_, found⟩
  rw [found]
  exact turns

/-- What an exploration reports are the derivations of the listed states. -/
theorem events_explore (somewhere : scope.maxStates ≠ 0) :
    let space := (relation.explore scope).value
    (relation.explore scope).events = space.discoveries.flatMap (relation.derivations scope) ++
      [.explored relation.name space.states.size space.transitions.size] := by
  obtain ⟨found, reported⟩ := relation.explore_eq_run scope somewhere
  have derived := (Search.traces_start (relation.survey scope)).events_run
  rw [reported, found]
  exact congrArg (· ++ _) derived

/-- An exploration ends, whatever can be reached, and does each piece of work once. If there is
room for a state, the loop takes the numbers of the listed states out of the queue in order and
comes to its end without having used the number of a state that is not listed or a depth above
the greatest one; a bound that is not below that, such as the largest number of 64 bits, is
therefore kept too. There are no more states than there is room for. The derivations are those
of every state in turn by every token, but of states that are not too deep only. If there is no
room, the first state is listed, and nothing is derived. -/
theorem explore_ends_within_limits :
    let alphabet := relation.explorationAlphabet scope
    let explored := relation.explore scope
    let space := explored.value
    (1 ≤ scope.maxStates →
      (∀ bound, scope.maxDepth ≤ bound → ∃ last,
        Search.Turns bound relation scope alphabet (.start relation.start)
          (List.range space.states.size) last ∧ space = last.space) ∧
      space.states.size ≤ scope.maxStates ∧
      explored.events = space.discoveries.flatMap (relation.derivations scope) ++
        [.explored relation.name space.states.size space.transitions.size] ∧
      explored.events.countP Event.isDerivation =
        alphabet.length * space.states.toList.countP (fun state => state.depth < scope.maxDepth)) ∧
    (scope.maxStates = 0 →
      space = ⟨#[⟨relation.start, relation.start.accepting, 0, true⟩], #[], 0⟩ ∧
      explored.events.countP Event.isDerivation = 0) := by
  intro alphabet explored space
  constructor
  · intro somewhere
    have nonzero : scope.maxStates ≠ 0 := Nat.one_le_iff_ne_zero.mp somewhere
    have reported := relation.events_explore scope nonzero
    refine ⟨fun bound fits => relation.exists_turns scope nonzero fits,
      relation.size_explore_le scope somewhere, reported, ?_⟩
    rw [reported, List.countP_append, countP_flatMap_derivations, StateSpace.countP_discoveries]
    rfl
  · intro nowhere
    have silent : explored.events = [.explored relation.name 1 0] := by
      simp only [explored, explore, if_pos nowhere]
      rfl
    refine ⟨value_explore_nowhere nowhere, ?_⟩
    rw [silent]
    rfl

/-- Exploring `0*` by `0` and `1` as deep as 64 bits allow, but with room for three states. -/
theorem explore_ends_of_zeros :
    let relation : Relation Nat := ⟨"zeros", .star (.token 0)⟩
    let scope : Scope Nat := ⟨UInt64.size - 1, 3, some [0, 1]⟩
    let explored := relation.explore scope
    1 ≤ scope.maxStates ∧ scope.maxDepth ≤ UInt64.size - 1 ∧
      (∃ last, Search.Turns (UInt64.size - 1) relation scope [0, 1] (.start relation.start)
        [0, 1, 2] last ∧ explored.value = last.space) ∧
      explored.events.countP Event.isDerivation = 6 := by
  intro relation scope explored
  have somewhere : 1 ≤ scope.maxStates := by decide
  have ended : ((relation.survey scope).found 3).length ≤ 3 := by decide +kernel
  have discoveries : explored.value.discoveries = (relation.survey scope).found 3 :=
    relation.discoveries_explore scope ended
  have size : explored.value.states.size = 3 := by
    rw [← StateSpace.length_discoveries, discoveries]
    decide +kernel
  have shallow : explored.value.states.toList.countP (fun state => state.depth < scope.maxDepth) =
      3 := by
    rw [← StateSpace.countP_discoveries, discoveries]
    decide +kernel
  obtain ⟨turns, _, _, derived⟩ := (relation.explore_ends_within_limits scope).1 somewhere
  rw [shallow] at derived
  rw [size] at turns
  have fits : scope.maxDepth ≤ UInt64.size - 1 := Nat.le_refl _
  exact ⟨somewhere, fits, turns _ fits, derived⟩

end Relation

end Residual
