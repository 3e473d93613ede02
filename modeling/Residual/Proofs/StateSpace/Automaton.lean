import Residual.Proofs.Regex.Denotation
import Residual.Proofs.Regex.Tokens
import Residual.Proofs.StateSpace.Result

/-!
# Explored spaces as automata

A path through a state space takes listed transitions one after the other and spells the
word of their tokens. In an explored space a path ends where the derivatives by its word
lead, and acceptance along it is membership in the language of the expression. A space
that no limit has cut off has a path for every word of its alphabet. As the default
alphabet has all tokens that words of the expression are spelled with, such a space is an
automaton for the expression.
-/

namespace Residual

universe u

variable {α : Type u}

/-- The word spelled by transitions. -/
def Transition.word (path : List (Transition α)) : List α := path.map (·.token)

namespace StateSpace

/-- Listed transitions that lead from one state to another. -/
inductive Path (space : StateSpace α) : Nat → List (Transition α) → Nat → Prop where
  | nil (number : Nat) : Path space number [] number
  | cons {transition : Transition α} {path : List (Transition α)} {number last : Nat} :
      transition ∈ space.transitions → transition.source = number →
        Path space transition.target path last →
        Path space number (transition :: path) last

/-- A word is accepted if it is spelled on the way to an accepting state. -/
def Accepts (space : StateSpace α) (word : List α) : Prop :=
  ∃ path last state, space.Path space.initial path last ∧ Transition.word path = word ∧
    space.states[last]? = some state ∧ state.accepting = true

theorem not_truncated {space : StateSpace α} (complete : space.truncated = false)
    {number : Nat} {state : ExploredState α} (listed : space.states[number]? = some state) :
    ¬ state.truncated = true := by
  intro cut
  rw [truncated, Array.any_eq_false'] at complete
  exact complete state (Array.mem_of_getElem? listed) cut

variable [DecidableEq α]

/-- A space of derivatives: its transitions are derivations, and none by a token of the
alphabet is missing unless a state is truncated. -/
structure Represents (relation : Relation α) (alphabet : List α) (space : StateSpace α) :
    Prop where
  initial : ∃ state, space.states[space.initial]? = some state ∧
    state.configuration = relation.start
  accepting : ∀ (number : Nat) (state : ExploredState α), space.states[number]? = some state →
    state.accepting = state.configuration.accepting
  derives : ∀ transition ∈ space.transitions, ∃ origin target : ExploredState α,
    space.states[transition.source]? = some origin ∧
      space.states[transition.target]? = some target ∧
      target.configuration = ⟨origin.configuration.expression.derive transition.token⟩ ∧
      transition.accepted = target.accepting
  follows : space.truncated = false → ∀ (number : Nat) (state : ExploredState α),
    space.states[number]? = some state →
    ∀ token ∈ alphabet, ∃ transition ∈ space.transitions,
      transition.source = number ∧ transition.token = token

variable {relation : Relation α} {alphabet : List α} {space : StateSpace α}

/-- A path leads to the residual by its word, and its last transition tells whether that
accepts. -/
theorem Represents.residual (represents : space.Represents relation alphabet)
    {number last : Nat} {path : List (Transition α)} (walk : space.Path number path last)
    {state : ExploredState α} (listed : space.states[number]? = some state) :
    ∃ final, space.states[last]? = some final ∧
      final.configuration =
        ⟨state.configuration.expression.residual (Transition.word path)⟩ ∧
      ∀ transition ∈ path.getLast?, transition.accepted = final.accepting := by
  induction walk generalizing state with
  | nil => exact ⟨state, listed, rfl, nofun⟩
  | @cons transition path number last member source later ih =>
      rcases represents.derives transition member with
        ⟨origin, target, here, there, configuration, flag⟩
      rw [source, listed] at here
      cases here
      rcases ih there with ⟨final, reached, residual, flags⟩
      refine ⟨final, reached, ?_, ?_⟩
      · rw [residual, configuration]
        rfl
      · cases later with
        | nil =>
            rw [there] at reached
            cases reached
            intro only same
            cases same
            exact flag
        | cons => exact flags

/-- Where nothing is cut off, every word of the alphabet is spelled on some path. -/
theorem Represents.exists_path (represents : space.Represents relation alphabet)
    (complete : space.truncated = false) {word : List α}
    (letters : ∀ token ∈ word, token ∈ alphabet) {number : Nat} {state : ExploredState α}
    (listed : space.states[number]? = some state) :
    ∃ path last, space.Path number path last ∧ Transition.word path = word := by
  induction word generalizing number state with
  | nil => exact ⟨[], number, .nil number, rfl⟩
  | cons token word ih =>
      have letter := letters token List.mem_cons_self
      have others := fun other member => letters other (List.mem_cons_of_mem token member)
      rcases represents.follows complete number state listed token letter with
        ⟨transition, member, source, spelled⟩
      rcases represents.derives transition member with ⟨_, target, _, there, _⟩
      rcases ih others there with ⟨path, last, later, rest⟩
      refine ⟨transition :: path, last, .cons member source later, ?_⟩
      rw [← rest, ← spelled]
      rfl

end StateSpace

namespace Relation

variable [DecidableEq α] [Hashable α]

/-- Whatever the limits are, an exploration returns a space of derivatives. -/
theorem explore_represents (relation : Relation α) (scope : Scope α) :
    (relation.explore scope).value.Represents relation (relation.explorationAlphabet scope) := by
  by_cases nowhere : scope.maxStates = 0
  · rw [value_explore_nowhere nowhere]
    constructor
    · exact ⟨_, rfl, rfl⟩
    · intro number state listed
      rw [Array.mem_singleton.mp (Array.mem_of_getElem? listed)]
    · nofun
    · intro complete
      exact absurd complete (by simp [StateSpace.truncated])
  · rcases exists_finished nowhere with ⟨search, finished, equal⟩
    rw [equal]
    constructor
    · rcases finished.initial with ⟨state, listed, same⟩
      refine ⟨state, (search.states_space 0).trans listed, ?_⟩
      exact congrArg Discovery.configuration same
    · intro number state listed
      rw [search.states_space] at listed
      exact (finished.states number state listed).1
    · intro transition member
      rcases finished.mem_transitions.mp member.val with
        ⟨origin, target, source, _, _, there, configuration, flag⟩
      rw [← search.states_space] at source there
      exact ⟨origin, target, source, there, configuration, flag⟩
    · intro complete number state listed token letter
      have uncut := StateSpace.not_truncated complete listed
      rw [search.states_space] at listed
      rw [finished.truncated_iff listed, not_or] at uncut
      have known : (state.discovery.after token).configuration ∈ search.table.configurations :=
        Decidable.not_not.mp fun missed => uncut.2 ⟨token, letter, missed⟩
      rcases List.mem_iff_getElem?.mp known with ⟨reached, found⟩
      rw [← StateTable.find?_eq_some, StateTable.find?_eq_some_iff] at found
      rcases found with ⟨target, there, configuration⟩
      refine ⟨⟨number, token, reached, target.accepting⟩, ?_, rfl, rfl⟩
      exact ⟨finished.mem_transitions.mpr ⟨state, target, listed, Nat.lt_of_not_le uncut.1,
        letter, there, configuration, rfl⟩⟩

/-- The explored space is a correct automaton for the expression. A path from the initial
state ends in the residual by its word, and the acceptance of that state, which the last
transition announces, is membership in the language. If no limit has cut the space off,
each word of the alphabet has such a path, and with the default alphabet exactly the words
of the language are accepted. -/
theorem explore_recognizes (relation : Relation α) (scope : Scope α) :
    let space := (relation.explore scope).value
    (∀ path last, space.Path space.initial path last →
      ∃ state, space.states[last]? = some state ∧
        state.configuration = ⟨relation.expression.residual (Transition.word path)⟩ ∧
        (state.accepting = true ↔ Transition.word path ∈ relation.expression.language) ∧
        ∀ transition ∈ path.getLast?, transition.accepted = state.accepting) ∧
    (space.truncated = false →
      (∀ word, (∀ token ∈ word, token ∈ relation.explorationAlphabet scope) →
        ∃ path last, space.Path space.initial path last ∧ Transition.word path = word) ∧
      (scope.alphabet = none →
        ∀ word, space.Accepts word ↔ word ∈ relation.expression.language)) := by
  intro space
  have represents := explore_represents relation scope
  rcases represents.initial with ⟨first, initial, beginning⟩
  have recognized : ∀ path last, space.Path space.initial path last →
      ∃ state, space.states[last]? = some state ∧
        state.configuration = ⟨relation.expression.residual (Transition.word path)⟩ ∧
        (state.accepting = true ↔ Transition.word path ∈ relation.expression.language) ∧
        ∀ transition ∈ path.getLast?, transition.accepted = state.accepting := by
    intro path last walk
    rcases represents.residual walk initial with ⟨state, listed, residual, announced⟩
    rw [beginning] at residual
    refine ⟨state, listed, residual, ?_, announced⟩
    rw [represents.accepting last state listed, residual, Regex.mem_language]
    exact Regex.nullable_residual_iff
  refine ⟨recognized, ?_⟩
  intro complete
  have spelled : ∀ word, (∀ token ∈ word, token ∈ relation.explorationAlphabet scope) →
      ∃ path last, space.Path space.initial path last ∧ Transition.word path = word := by
    intro word letters
    exact represents.exists_path complete letters initial
  refine ⟨spelled, ?_⟩
  intro default word
  constructor
  · intro accepted
    rcases accepted with ⟨path, last, state, walk, word, listed, accepting⟩
    rcases recognized path last walk with ⟨other, same, _, acceptance, _⟩
    rw [listed] at same
    cases same
    exact word ▸ acceptance.mp accepting
  · intro member
    have letters : ∀ token ∈ word, token ∈ relation.explorationAlphabet scope := by
      intro token letter
      rw [explorationAlphabet, default, Option.getD_none, Regex.mem_firstOccurrences]
      exact (Regex.mem_language.mp member).mem_tokens letter
    rcases spelled word letters with ⟨path, last, walk, same⟩
    rcases recognized path last walk with ⟨state, listed, _, acceptance, _⟩
    exact ⟨path, last, state, walk, same, listed, acceptance.mpr (same ▸ member)⟩

/-- Exploring `0|1` ends by itself. The result accepts the words of `0|1`, and it can be
followed along other words of the two digits too. -/
theorem explore_recognizes_digits :
    let relation : Relation Nat := ⟨"digits", .union (.token 0) (.token 1)⟩
    let space := (relation.explore {}).value
    space.truncated = false ∧
      (∀ word, space.Accepts word ↔ word ∈ relation.expression.language) ∧
      ∃ path last, space.Path space.initial path last ∧ Transition.word path = [1, 0] := by
  intro relation space
  have alphabet : relation.explorationAlphabet {} = [0, 1] := by
    rw [explorationAlphabet, Option.getD_none, Regex.firstOccurrences_eq]
    rfl
  have survey : relation.survey {} = ⟨relation.start, [0, 1], 8, 1024⟩ := by
    rw [Relation.survey, alphabet]
  have ended : ((relation.survey {}).found 4).length ≤ 4 := by
    rw [survey]
    decide +kernel
  have complete : space.truncated = false := by
    apply not_truncated_of_ended (by decide) ended
    rw [survey, alphabet]
    decide +kernel
  have recognized := (explore_recognizes relation {}).2 complete
  refine ⟨complete, recognized.2 rfl, recognized.1 [1, 0] ?_⟩
  rw [alphabet]
  simp

end Relation

end Residual
