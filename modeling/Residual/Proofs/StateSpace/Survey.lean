import Mathlib.Data.List.Basic
import Residual.StateSpace.Exploration

/-!
# Surveys

The work of an exploration is a list of visits to states, each known by its number: either
the state is too deep and nothing is done there, or it is derived by a token. What the
visits discover depends on no table and no queue. A derivative is listed behind the
discoveries made so far unless its configuration is one of theirs, as long as there is
room. Since nothing is listed any more once there is no room, a configuration that was
turned away never turns up later, and the list settles which visits lead where.

A survey visits the discoveries in the order of the list that they extend themselves, and
is over when it comes to the end of that list.
-/

namespace Residual

universe u

variable {α : Type u}

/-- A configuration together with the number of tokens read to get there. -/
structure Discovery (α : Type u) where
  configuration : Configuration α
  depth : Nat
  deriving DecidableEq, Repr

namespace Discovery

/-- The configurations of discoveries, in order. -/
def configurations (known : List (Discovery α)) : List (Configuration α) :=
  known.map (·.configuration)

@[simp] theorem configurations_append (first second : List (Discovery α)) :
    configurations (first ++ second) = configurations first ++ configurations second :=
  List.map_append

variable [DecidableEq α]

/-- Where a token leads. -/
def after (origin : Discovery α) (token : α) : Discovery α :=
  ⟨⟨origin.configuration.expression.derive token⟩, origin.depth + 1⟩

/-- Lists a discovery behind the known ones, unless its configuration is known or there is
no room for it. -/
def enlist (maxStates : Nat) (known : List (Discovery α)) (found : Discovery α) :
    List (Discovery α) :=
  if found.configuration ∈ configurations known ∨ maxStates ≤ known.length then known
  else known ++ [found]

/-- Lists discoveries one after the other. -/
def enlistAll (maxStates : Nat) (known found : List (Discovery α)) : List (Discovery α) :=
  found.foldl (enlist maxStates) known

theorem enlist_known {maxStates : Nat} {known : List (Discovery α)} {found : Discovery α}
    (member : found.configuration ∈ configurations known) :
    enlist maxStates known found = known :=
  if_pos (.inl member)

theorem enlist_full {maxStates : Nat} {known : List (Discovery α)} (found : Discovery α)
    (full : maxStates ≤ known.length) : enlist maxStates known found = known :=
  if_pos (.inr full)

theorem enlist_new {maxStates : Nat} {known : List (Discovery α)} {found : Discovery α}
    (new : found.configuration ∉ configurations known) (room : known.length < maxStates) :
    enlist maxStates known found = known ++ [found] := by
  apply if_neg
  intro either
  rcases either with member | full
  · exact new member
  · exact Nat.not_lt.mpr full room

theorem prefix_enlist (maxStates : Nat) (known : List (Discovery α)) (found : Discovery α) :
    known <+: enlist maxStates known found := by
  rw [enlist]
  split
  · exact List.prefix_rfl
  · exact List.prefix_append known [found]

/-- A discovery is known afterwards, or was turned away for want of room. -/
theorem mem_or_full_enlist (maxStates : Nat) (known : List (Discovery α))
    (found : Discovery α) :
    found.configuration ∈ configurations (enlist maxStates known found) ∨
      maxStates ≤ (enlist maxStates known found).length := by
  rw [enlist]
  split
  · next either => exact either
  · apply Or.inl
    rw [configurations_append]
    exact List.mem_append_right _ List.mem_cons_self

theorem enlistAll_append (maxStates : Nat) (known first second : List (Discovery α)) :
    enlistAll maxStates known (first ++ second) =
      enlistAll maxStates (enlistAll maxStates known first) second :=
  List.foldl_append

/-- What is known keeps its place. -/
theorem prefix_enlistAll (maxStates : Nat) (known found : List (Discovery α)) :
    known <+: enlistAll maxStates known found := by
  induction found generalizing known with
  | nil => exact List.prefix_rfl
  | cons first found ih =>
      exact (prefix_enlist maxStates known first).trans (ih (enlist maxStates known first))

/-- Each discovery is listed in the end, unless the list is full. -/
theorem mem_or_full_enlistAll {maxStates : Nat} {known found : List (Discovery α)}
    {discovery : Discovery α} (member : discovery ∈ found) :
    discovery.configuration ∈ configurations (enlistAll maxStates known found) ∨
      maxStates ≤ (enlistAll maxStates known found).length := by
  induction found generalizing known with
  | nil => exact absurd member List.not_mem_nil
  | cons first found ih =>
      rcases List.mem_cons.mp member with same | later
      · subst same
        have kept := prefix_enlistAll maxStates (enlist maxStates known discovery) found
        rcases mem_or_full_enlist maxStates known discovery with listed | full
        · exact .inl ((kept.map _).subset listed)
        · exact .inr (Nat.le_trans full kept.length_le)
      · exact ih later

end Discovery

/-- A piece of work at the state of some number. -/
inductive Visit (α : Type u) where
  /-- The state is too deep to be expanded. -/
  | stop (source : Nat)
  /-- The state, at which the discovery `origin` was made, is derived by a token. -/
  | derive (source : Nat) (origin : Discovery α) (token : α)
  deriving DecidableEq, Repr

namespace Visit

/-- The state that is visited. -/
def source : Visit α → Nat
  | .stop source => source
  | .derive source _ _ => source

variable [DecidableEq α]

/-- What a visit discovers. -/
def discovery? : Visit α → Option (Discovery α)
  | .stop _ => none
  | .derive _ origin token => some (origin.after token)

/-- Whether no known configuration is reached by the visit. -/
def Misses (known : List (Configuration α)) : Visit α → Prop
  | .stop _ => True
  | .derive _ origin token => (origin.after token).configuration ∉ known

/-- A further visit truncates a state if it is one to that state and misses. -/
theorem exists_misses_concat {known : List (Configuration α)} {number : Nat}
    {made : List (Visit α)} (visit : Visit α) :
    (∃ other ∈ made ++ [visit], other.source = number ∧ other.Misses known) ↔
      (∃ other ∈ made, other.source = number ∧ other.Misses known) ∨
        (visit.source = number ∧ visit.Misses known) := by
  simp only [List.mem_append, List.mem_singleton, or_and_right, exists_or, exists_eq_left]

/-- The transition to the known configuration that is reached by the visit. -/
def transition? (known : List (Configuration α)) : Visit α → Option (Transition α)
  | .stop _ => none
  | .derive source origin token =>
      let reached := (origin.after token).configuration
      (known.findIdx? (· == reached)).map fun target =>
        ⟨source, token, target, reached.accepting⟩

/-- A visit that reaches no known configuration gives no transition. -/
theorem transition?_eq_none {known : List (Configuration α)} {visit : Visit α}
    (missed : visit.Misses known) : visit.transition? known = none := by
  cases visit with
  | stop => rfl
  | derive source origin token =>
      rw [transition?, Option.map_eq_none_iff, List.findIdx?_eq_none_iff]
      intro configuration member
      rw [beq_eq_false_iff_ne]
      intro same
      subst same
      exact missed member

/-- Whether what the visit discovers, if anything, is known. -/
def Settled (known : List (Configuration α)) (visit : Visit α) : Prop :=
  ∀ discovery, visit.discovery? = some discovery → discovery.configuration ∈ known

/-- More configurations change nothing for a visit that is settled. -/
theorem Settled.misses_append {known : List (Configuration α)} {visit : Visit α}
    (settled : visit.Settled known) (more : List (Configuration α)) :
    visit.Misses (known ++ more) ↔ visit.Misses known := by
  cases visit with
  | stop => exact Iff.rfl
  | derive source origin token =>
      have member := settled (origin.after token) rfl
      constructor
      · intro missed
        exact absurd (List.mem_append_left more member) missed
      · intro missed
        exact absurd member missed

theorem Settled.transition?_append {known : List (Configuration α)} {visit : Visit α}
    (settled : visit.Settled known) (more : List (Configuration α)) :
    visit.transition? (known ++ more) = visit.transition? known := by
  cases visit with
  | stop => rfl
  | derive source origin token =>
      have member := settled (origin.after token) rfl
      cases found : known.findIdx? (· == (origin.after token).configuration) with
      | none =>
          have missing := List.findIdx?_eq_none_iff.mp found _ member
          exact absurd missing (by simp)
      | some target => simp only [transition?, List.findIdx?_append, found, Option.some_or]

/-- More configurations change no truncation by settled visits. -/
theorem exists_misses_append {known : List (Configuration α)} {made : List (Visit α)}
    (settled : ∀ visit ∈ made, visit.Settled known) (more : List (Configuration α))
    (number : Nat) :
    (∃ visit ∈ made, visit.source = number ∧ visit.Misses (known ++ more)) ↔
      ∃ visit ∈ made, visit.source = number ∧ visit.Misses known := by
  apply exists_congr
  intro visit
  apply and_congr_right
  intro member
  rw [(settled visit member).misses_append]

/-- More configurations change no transitions of settled visits. -/
theorem filterMap_transition?_append {known : List (Configuration α)}
    {made : List (Visit α)} (settled : ∀ visit ∈ made, visit.Settled known)
    (more : List (Configuration α)) :
    made.filterMap (transition? (known ++ more)) = made.filterMap (transition? known) := by
  apply List.filterMap_congr
  intro visit member
  exact (settled visit member).transition?_append more

end Visit

/-- All that the states of an exploration depend on. -/
structure Survey (α : Type u) where
  start : Configuration α
  alphabet : List α
  maxDepth : Nat
  maxStates : Nat
  deriving DecidableEq, Repr

namespace Survey

/-- The visits to the state at which a discovery was made. -/
def visitsAt (survey : Survey α) (number : Nat) (origin : Discovery α) : List (Visit α) :=
  if survey.maxDepth ≤ origin.depth then [.stop number]
  else survey.alphabet.map (.derive number origin)

theorem mem_visitsAt {survey : Survey α} {number : Nat} {origin : Discovery α}
    {visit : Visit α} :
    visit ∈ survey.visitsAt number origin ↔
      (survey.maxDepth ≤ origin.depth ∧ visit = .stop number) ∨
        (origin.depth < survey.maxDepth ∧
          ∃ token ∈ survey.alphabet, visit = .derive number origin token) := by
  by_cases deep : survey.maxDepth ≤ origin.depth
  · rw [visitsAt, if_pos deep, List.mem_singleton]
    simp [deep, Nat.not_lt.mpr deep]
  · rw [visitsAt, if_neg deep, List.mem_map]
    simp [deep, Nat.lt_of_not_le deep, eq_comm]

theorem source_of_mem_visitsAt {survey : Survey α} {number : Nat} {origin : Discovery α}
    {visit : Visit α} (member : visit ∈ survey.visitsAt number origin) :
    visit.source = number := by
  rcases mem_visitsAt.mp member with ⟨_, equal⟩ | ⟨_, _, _, equal⟩
  · rw [equal]
    rfl
  · rw [equal]
    rfl

variable [DecidableEq α]

/-- What is known after visits. -/
def discovered (survey : Survey α) (made : List (Visit α)) : List (Discovery α) :=
  Discovery.enlistAll survey.maxStates [⟨survey.start, 0⟩] (made.filterMap Visit.discovery?)

/-- The visits to the states below a number. -/
def itinerary (survey : Survey α) : Nat → List (Visit α)
  | 0 => []
  | number + 1 =>
      let made := survey.itinerary number
      match (survey.discovered made)[number]? with
      | none => made
      | some origin => made ++ survey.visitsAt number origin

/-- What is known after the visits to the states below a number. -/
def found (survey : Survey α) (number : Nat) : List (Discovery α) :=
  survey.discovered (survey.itinerary number)

variable {survey : Survey α}

theorem discovered_append (survey : Survey α) (made more : List (Visit α)) :
    survey.discovered (made ++ more) =
      Discovery.enlistAll survey.maxStates (survey.discovered made)
        (more.filterMap Visit.discovery?) := by
  rw [discovered, List.filterMap_append, Discovery.enlistAll_append, discovered]

theorem discovered_concat_none {made : List (Visit α)} {visit : Visit α}
    (nothing : visit.discovery? = none) :
    survey.discovered (made ++ [visit]) = survey.discovered made := by
  rw [discovered_append, List.filterMap_cons_none nothing]
  rfl

theorem discovered_concat_some {made : List (Visit α)} {visit : Visit α}
    {discovery : Discovery α} (found : visit.discovery? = some discovery) :
    survey.discovered (made ++ [visit]) =
      Discovery.enlist survey.maxStates (survey.discovered made) discovery := by
  rw [discovered_append, List.filterMap_cons_some found]
  rfl

/-- Further visits leave the discoveries in their places. -/
theorem prefix_discovered (survey : Survey α) (made more : List (Visit α)) :
    survey.discovered made <+: survey.discovered (made ++ more) := by
  rw [discovered_append]
  exact Discovery.prefix_enlistAll survey.maxStates (survey.discovered made) _

/-- Each discovery of a visit is known, unless the list is full. -/
theorem mem_or_full_discovered {made : List (Visit α)} {visit : Visit α}
    (member : visit ∈ made) :
    visit.Settled (Discovery.configurations (survey.discovered made)) ∨
      survey.maxStates ≤ (survey.discovered made).length := by
  by_cases full : survey.maxStates ≤ (survey.discovered made).length
  · exact .inr full
  · apply Or.inl
    intro discovery found
    have offered : discovery ∈ made.filterMap Visit.discovery? :=
      List.mem_filterMap.mpr ⟨visit, member, found⟩
    exact (Discovery.mem_or_full_enlistAll offered).resolve_right full

theorem itinerary_succ {number : Nat} {origin : Discovery α}
    (listed : (survey.found number)[number]? = some origin) :
    survey.itinerary (number + 1) =
      survey.itinerary number ++ survey.visitsAt number origin := by
  rw [found] at listed
  rw [itinerary, listed]

/-- Behind the end of the list no state is visited. -/
theorem itinerary_succ_of_length_le {number : Nat}
    (ended : (survey.found number).length ≤ number) :
    survey.itinerary (number + 1) = survey.itinerary number := by
  have missing := List.getElem?_eq_none ended
  rw [found] at missing
  rw [itinerary, missing]

theorem found_succ_of_length_le {number : Nat}
    (ended : (survey.found number).length ≤ number) :
    survey.found (number + 1) = survey.found number := by
  rw [found, found, itinerary_succ_of_length_le ended]

theorem prefix_found_succ (survey : Survey α) (number : Nat) :
    survey.found number <+: survey.found (number + 1) := by
  cases listed : (survey.found number)[number]? with
  | none =>
      have same := found_succ_of_length_le (List.getElem?_eq_none_iff.mp listed)
      exact same ▸ List.prefix_rfl
  | some origin =>
      rw [found, found, itinerary_succ listed]
      exact survey.prefix_discovered _ _

theorem getElem?_found_succ {number source : Nat}
    (inside : source < (survey.found number).length) :
    (survey.found (number + 1))[source]? = (survey.found number)[source]? := by
  rcases survey.prefix_found_succ number with ⟨more, extended⟩
  rw [← extended, List.getElem?_append_left inside]

/-- The visits below a number are those to the discoveries with smaller numbers. -/
theorem mem_itinerary {number : Nat} {visit : Visit α} :
    visit ∈ survey.itinerary number ↔
      visit.source < number ∧ ∃ origin, (survey.found number)[visit.source]? = some origin ∧
        visit ∈ survey.visitsAt visit.source origin := by
  induction number with
  | zero => simp [itinerary]
  | succ number ih =>
      cases listed : (survey.found number)[number]? with
      | none =>
          have ended := List.getElem?_eq_none_iff.mp listed
          rw [itinerary_succ_of_length_le ended, ih, found_succ_of_length_le ended]
          constructor
          · intro earlier
            exact ⟨Nat.lt_succ_of_lt earlier.1, earlier.2⟩
          · intro earlier
            rcases earlier with ⟨_, origin, known, member⟩
            have inside := (List.getElem?_eq_some_iff.mp known).1
            exact ⟨Nat.lt_of_lt_of_le inside ended, origin, known, member⟩
      | some here =>
          have long := (List.getElem?_eq_some_iff.mp listed).1
          have kept : ∀ source, source < number + 1 →
              (survey.found (number + 1))[source]? = (survey.found number)[source]? :=
            fun source below => getElem?_found_succ (Nat.lt_of_lt_of_le below long)
          rw [itinerary_succ listed, List.mem_append, ih]
          constructor
          · intro visited
            rcases visited with ⟨below, origin, known, member⟩ | last
            · have below := Nat.lt_succ_of_lt below
              exact ⟨below, origin, (kept visit.source below).trans known, member⟩
            · have source := source_of_mem_visitsAt last
              have below : visit.source < number + 1 := source ▸ Nat.lt_succ_self _
              refine ⟨below, here, (kept visit.source below).trans ?_, ?_⟩
              · rw [source, listed]
              · rw [source]
                exact last
          · intro visited
            rcases visited with ⟨below, origin, known, member⟩
            rw [kept visit.source below] at known
            rcases Nat.lt_succ_iff_lt_or_eq.mp below with earlier | source
            · exact .inl ⟨earlier, origin, known, member⟩
            · rw [source, listed] at known
              cases known
              exact .inr (source ▸ member)

/-- A survey that has come to the end of its list is over. -/
theorem itinerary_eq_of_le {number later : Nat} (ended : (survey.found number).length ≤ number)
    (le : number ≤ later) : survey.itinerary later = survey.itinerary number := by
  induction le with
  | refl => rfl
  | @step later le ih =>
      have still : (survey.found later).length ≤ later := by
        rw [found, ih]
        exact Nat.le_trans ended le
      rw [itinerary_succ_of_length_le still, ih]

/-- However far a survey goes after its end, it has found the same. -/
theorem found_eq_found {first second : Nat} (firstEnded : (survey.found first).length ≤ first)
    (secondEnded : (survey.found second).length ≤ second) :
    survey.found first = survey.found second := by
  rcases Nat.le_total first second with le | le
  · rw [found, found, itinerary_eq_of_le firstEnded le]
  · rw [found, found, itinerary_eq_of_le secondEnded le]

end Survey

/-- The survey that an exploration makes. -/
def Relation.survey [DecidableEq α] [Hashable α] (relation : Relation α) (scope : Scope α) :
    Survey α :=
  ⟨relation.start, relation.explorationAlphabet scope, scope.maxDepth, scope.maxStates⟩

end Residual
