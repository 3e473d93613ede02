import Mathlib.Data.List.Nodup
import Residual.Proofs.StateSpace.Survey

/-!
# The layers of a survey

A survey visits its discoveries in the order in which it lists them, and what it lists
behind them is one token deeper. So the depths in the list never decrease, and while a
discovery is visited nothing is known that is more than one layer deeper. Two things keep a
derivative out of the list: its origin is too deep to be visited, or there is no room. In
either case the list already ends in the layer where the derivative would stand, or before
it. Hence a recorded depth is the length of a shortest word, whatever the limits are.
-/

namespace Residual

universe u

variable {α : Type u}

/-! ## Reaching a configuration -/

namespace Configuration

variable [DecidableEq α]

/-- Whether some word of so many tokens of an alphabet leads to a configuration. -/
def Reaches (start : Configuration α) (alphabet : List α) (length : Nat)
    (target : Configuration α) : Prop :=
  ∃ word : List α, (∀ token ∈ word, token ∈ alphabet) ∧ word.length = length ∧
    target = ⟨start.expression.residual word⟩

variable {start target : Configuration α} {alphabet : List α} {length : Nat}

theorem reaches_zero : start.Reaches alphabet 0 target ↔ target = start := by
  constructor
  · intro reached
    rcases reached with ⟨word, _, nothing, same⟩
    rw [List.eq_nil_of_length_eq_zero nothing] at same
    exact same
  · intro same
    exact ⟨[], nofun, rfl, same⟩

/-- The last token of a word leads from where the tokens before it lead. -/
theorem reaches_succ :
    start.Reaches alphabet (length + 1) target ↔
      ∃ origin, start.Reaches alphabet length origin ∧
        ∃ token ∈ alphabet, target = ⟨origin.expression.derive token⟩ := by
  constructor
  · intro reached
    rcases reached with ⟨word, letters, long, same⟩
    rcases List.eq_nil_or_concat word with nothing | ⟨before, token, split⟩
    · rw [nothing] at long
      cases long
    · subst split
      rw [List.concat_eq_append] at letters long same
      rw [List.length_append] at long
      refine ⟨⟨start.expression.residual before⟩,
        ⟨before, ?_, Nat.succ.inj long, rfl⟩, token, ?_, ?_⟩
      · intro other member
        exact letters other (List.mem_append_left [token] member)
      · exact letters token (List.mem_append_right before List.mem_cons_self)
      · rw [same, Regex.residual_append]
        rfl
  · intro derived
    rcases derived with ⟨origin, ⟨word, letters, long, reached⟩, token, letter, same⟩
    refine ⟨word ++ [token], ?_, ?_, ?_⟩
    · intro other member
      rcases List.mem_append.mp member with earlier | last
      · exact letters other earlier
      · exact List.mem_singleton.mp last ▸ letter
    · rw [List.length_append, long]
      rfl
    · rw [same, reached, Regex.residual_append]
      rfl

end Configuration

/-! ## Listing a layer -/

namespace Discovery

/-- Discoveries in the order of their depths, and none deeper than `depth`. -/
structure Layered (depth : Nat) (known : List (Discovery α)) : Prop where
  sorted : known.Pairwise fun earlier later => earlier.depth ≤ later.depth
  bounded : ∀ discovery ∈ known, discovery.depth ≤ depth

theorem Layered.depth_le {known : List (Discovery α)} {depth first second : Nat}
    {earlier later : Discovery α} (layered : Layered depth known) (before : first < second)
    (here : known[first]? = some earlier) (there : known[second]? = some later) :
    earlier.depth ≤ later.depth := by
  rcases List.getElem?_eq_some_iff.mp here with ⟨firstInside, firstEqual⟩
  rcases List.getElem?_eq_some_iff.mp there with ⟨secondInside, secondEqual⟩
  rw [← firstEqual, ← secondEqual]
  exact List.pairwise_iff_getElem.mp layered.sorted _ _ firstInside secondInside before

variable [DecidableEq α] {maxStates : Nat} {known found : List (Discovery α)}

/-- What is listed behind the known discoveries may stand in the last layer. -/
theorem Layered.enlist {last : Discovery α} (layered : Layered last.depth known) :
    Layered last.depth (enlist maxStates known last) := by
  rw [Discovery.enlist]
  split
  · exact layered
  · constructor
    · refine List.pairwise_append.mpr ⟨layered.sorted, List.pairwise_singleton .., ?_⟩
      intro earlier member later only
      rw [List.mem_singleton.mp only]
      exact layered.bounded earlier member
    · intro discovery member
      rcases List.mem_append.mp member with old | new
      · exact layered.bounded discovery old
      · exact Nat.le_of_eq (congrArg Discovery.depth (List.mem_singleton.mp new))

/-- What each discovery keeps is kept by all of them. -/
theorem enlistAll_induction {motive : List (Discovery α) → Prop} (start : motive known)
    (step : ∀ listed, motive listed → ∀ discovery ∈ found,
      motive (enlist maxStates listed discovery)) :
    motive (enlistAll maxStates known found) :=
  List.foldlRecOn found (enlist maxStates) start step

theorem Layered.enlistAll {depth : Nat} (layered : Layered depth known)
    (level : ∀ discovery ∈ found, discovery.depth = depth) :
    Layered depth (enlistAll maxStates known found) := by
  apply enlistAll_induction layered
  intro listed still discovery member
  have same := level discovery member
  subst same
  exact still.enlist

theorem nodup_enlistAll (distinct : (configurations known).Nodup) :
    (configurations (enlistAll maxStates known found)).Nodup := by
  apply enlistAll_induction (motive := fun listed => (configurations listed).Nodup) distinct
  intro listed still discovery _
  rw [enlist]
  split
  · exact still
  · next new =>
      have last : configurations (listed ++ [discovery]) =
          (configurations listed).concat discovery.configuration := by
        rw [configurations_append, List.concat_eq_append]
        rfl
      rw [last]
      apply List.Nodup.concat
      · intro member
        exact new (.inl member)
      · exact still

/-- What is listed behind the known discoveries are some of those that were offered. -/
theorem exists_enlistAll_eq (maxStates : Nat) (known found : List (Discovery α)) :
    ∃ more, enlistAll maxStates known found = known ++ more ∧
      ∀ discovery ∈ more, discovery ∈ found := by
  apply enlistAll_induction (motive := fun listed =>
    ∃ more, listed = known ++ more ∧ ∀ discovery ∈ more, discovery ∈ found)
  · exact ⟨[], (List.append_nil known).symm, nofun⟩
  · intro listed split discovery offered
    rcases split with ⟨more, equal, every⟩
    rw [enlist]
    split
    · exact ⟨more, equal, every⟩
    · refine ⟨more ++ [discovery], ?_, ?_⟩
      · rw [equal, List.append_assoc]
      · intro other member
        rcases List.mem_append.mp member with old | new
        · exact every other old
        · exact List.mem_singleton.mp new ▸ offered

/-- A full list stays as it is. -/
theorem enlistAll_full (full : maxStates ≤ known.length) :
    enlistAll maxStates known found = known := by
  apply enlistAll_induction (motive := (· = known)) rfl
  intro listed same discovery _
  subst same
  exact enlist_full discovery full

end Discovery

namespace Survey

variable [DecidableEq α] {survey : Survey α}

/-! ## Surveying layer by layer -/

/-- What the visits at a state offer are its derivatives, unless it is too deep. -/
theorem mem_offered {number : Nat} {origin discovery : Discovery α} :
    discovery ∈ (survey.visitsAt number origin).filterMap Visit.discovery? ↔
      origin.depth < survey.maxDepth ∧
        ∃ token ∈ survey.alphabet, discovery = origin.after token := by
  rw [List.mem_filterMap]
  constructor
  · intro offered
    rcases offered with ⟨visit, member, gives⟩
    rcases mem_visitsAt.mp member with ⟨_, equal⟩ | ⟨shallow, token, letter, equal⟩
    · rw [equal] at gives
      cases gives
    · rw [equal] at gives
      exact ⟨shallow, token, letter, (Option.some.inj gives).symm⟩
  · intro derived
    rcases derived with ⟨shallow, token, letter, equal⟩
    refine ⟨.derive number origin token, ?_, congrArg some equal.symm⟩
    exact mem_visitsAt.mpr (.inr ⟨shallow, token, letter, rfl⟩)

theorem found_succ {number : Nat} {origin : Discovery α}
    (listed : (survey.found number)[number]? = some origin) :
    survey.found (number + 1) = Discovery.enlistAll survey.maxStates (survey.found number)
      ((survey.visitsAt number origin).filterMap Visit.discovery?) := by
  rw [found, itinerary_succ listed, discovered_append, found]

theorem prefix_found (survey : Survey α) {number later : Nat} (le : number ≤ later) :
    survey.found number <+: survey.found later := by
  induction le with
  | refl => exact List.prefix_rfl
  | step le ih => exact ih.trans (survey.prefix_found_succ _)

/-- Once there is no room, nothing is found any more. -/
theorem found_eq_of_full {number later : Nat}
    (full : survey.maxStates ≤ (survey.found number).length) (le : number ≤ later) :
    survey.found later = survey.found number := by
  induction le with
  | refl => rfl
  | @step later le ih =>
      rw [← ih] at full ⊢
      cases listed : (survey.found later)[later]? with
      | none => exact found_succ_of_length_le (List.getElem?_eq_none_iff.mp listed)
      | some origin => rw [found_succ listed, Discovery.enlistAll_full full]

/-- What a survey has found is different. -/
theorem nodup_found (survey : Survey α) (number : Nat) :
    (Discovery.configurations (survey.found number)).Nodup :=
  Discovery.nodup_enlistAll (List.nodup_singleton survey.start)

/-- The list when a survey comes to the state `number`: its depths never decrease, and it
ends at most one layer behind that state. -/
structure InLayers (survey : Survey α) (number : Nat) : Prop where
  sorted : (survey.found number).Pairwise fun earlier later => earlier.depth ≤ later.depth
  near : ∀ origin, (survey.found number)[number]? = some origin →
    ∀ discovery ∈ survey.found number, discovery.depth ≤ origin.depth + 1

/-- A visit lists nothing in front of the next layer and nothing behind it. -/
theorem InLayers.layered_succ {number : Nat} {origin : Discovery α}
    (inLayers : survey.InLayers number)
    (listed : (survey.found number)[number]? = some origin) :
    Discovery.Layered (origin.depth + 1) (survey.found (number + 1)) := by
  rw [found_succ listed]
  apply Discovery.Layered.enlistAll ⟨inLayers.sorted, inLayers.near origin listed⟩
  intro discovery offered
  rcases mem_offered.mp offered with ⟨_, token, _, same⟩
  rw [same]
  rfl

theorem inLayers (survey : Survey α) (number : Nat) : survey.InLayers number := by
  induction number with
  | zero =>
      refine ⟨List.pairwise_singleton .., ?_⟩
      intro origin _ discovery member
      rw [List.mem_singleton.mp member]
      exact Nat.zero_le _
  | succ number ih =>
      cases listed : (survey.found number)[number]? with
      | none =>
          have ended := List.getElem?_eq_none_iff.mp listed
          have same := found_succ_of_length_le ended
          refine ⟨same ▸ ih.sorted, ?_⟩
          intro origin next
          have inside := (List.getElem?_eq_some_iff.mp next).1
          rw [same] at inside
          exact absurd (Nat.lt_of_lt_of_le inside ended) (Nat.not_lt.mpr (Nat.le_succ number))
      | some origin =>
          have layered := ih.layered_succ listed
          refine ⟨layered.sorted, ?_⟩
          intro next nextListed discovery member
          -- the list is sorted, so the next state is no less deep than the one just visited
          have inside := (List.getElem?_eq_some_iff.mp listed).1
          have before := (getElem?_found_succ inside).trans listed
          have deeper := layered.depth_le (Nat.lt_succ_self number) before nextListed
          exact Nat.le_trans (layered.bounded discovery member) (Nat.succ_le_succ deeper)

/-! ## Where discoveries come from -/

/-- Every discovery but the first is derived from one with a smaller number. -/
theorem exists_origin {number position : Nat} {discovery : Discovery α}
    (listed : (survey.found number)[position]? = some discovery) :
    (position = 0 ∧ discovery = ⟨survey.start, 0⟩) ∨
      ∃ source < position, ∃ origin, (survey.found number)[source]? = some origin ∧
        origin.depth < survey.maxDepth ∧
        ∃ token ∈ survey.alphabet, discovery = origin.after token := by
  induction number with
  | zero =>
      have start : survey.found 0 = [⟨survey.start, 0⟩] := rfl
      rw [start, List.getElem?_singleton] at listed
      split at listed
      · next first => exact .inl ⟨first, (Option.some.inj listed).symm⟩
      · cases listed
  | succ number ih =>
      cases visited : (survey.found number)[number]? with
      | none =>
          rw [found_succ_of_length_le (List.getElem?_eq_none_iff.mp visited)] at listed ⊢
          exact ih listed
      | some here =>
          rcases Nat.lt_or_ge position (survey.found number).length with old | new
          · rw [getElem?_found_succ old] at listed
            rcases ih listed with first | ⟨source, earlier, origin, known, derived⟩
            · exact .inl first
            · refine .inr ⟨source, earlier, origin, ?_, derived⟩
              rw [getElem?_found_succ (Nat.lt_trans earlier old), known]
          · have inside := (List.getElem?_eq_some_iff.mp visited).1
            rcases Discovery.exists_enlistAll_eq survey.maxStates (survey.found number)
              ((survey.visitsAt number here).filterMap Visit.discovery?) with
              ⟨more, split, offered⟩
            rw [found_succ visited, split, List.getElem?_append_right new] at listed
            have derived := mem_offered.mp (offered discovery (List.mem_of_getElem? listed))
            refine .inr ⟨number, Nat.lt_of_lt_of_le inside new, here, ?_, derived⟩
            rw [getElem?_found_succ inside, visited]

/-- A discovery is reached by a word of as many tokens as its depth says, and its depth is
within the limit. -/
theorem reaches_found {number position : Nat} {discovery : Discovery α}
    (listed : (survey.found number)[position]? = some discovery) :
    survey.start.Reaches survey.alphabet discovery.depth discovery.configuration ∧
      discovery.depth ≤ survey.maxDepth := by
  induction position using Nat.strongRecOn generalizing discovery with
  | ind position ih =>
      rcases exists_origin listed with
        ⟨_, first⟩ | ⟨source, earlier, origin, known, shallow, token, letter, derived⟩
      · rw [first]
        exact ⟨Configuration.reaches_zero.mpr rfl, Nat.zero_le _⟩
      · rw [derived]
        refine ⟨Configuration.reaches_succ.mpr ⟨origin.configuration, ?_, token, letter, rfl⟩,
          shallow⟩
        exact (ih source earlier known).1

theorem reaches_of_mem {number : Nat} {discovery : Discovery α}
    (member : discovery ∈ survey.found number) :
    survey.start.Reaches survey.alphabet discovery.depth discovery.configuration ∧
      discovery.depth ≤ survey.maxDepth := by
  rcases List.mem_iff_getElem?.mp member with ⟨position, listed⟩
  exact reaches_found listed

/-! ## Surveys that are over -/

section Ended

variable {number : Nat}

/-- A survey does not end before it has visited a discovery that it lists. -/
theorem listed_before_visit {source : Nat} {origin : Discovery α}
    (ended : (survey.found number).length ≤ number)
    (listed : (survey.found number)[source]? = some origin) :
    (survey.found source)[source]? = some origin := by
  have inside := (List.getElem?_eq_some_iff.mp listed).1
  rcases survey.prefix_found (Nat.le_of_lt (Nat.lt_of_lt_of_le inside ended)) with ⟨more, split⟩
  rcases Nat.lt_or_ge source (survey.found source).length with known | past
  · rw [← split, List.getElem?_append_left known] at listed
    exact listed
  · rw [← found_eq_found past ended] at inside
    exact absurd past (Nat.not_le.mpr inside)

/-- A derivative by a token of the alphabet is listed in the next layer or before it,
unless the list is full and ends there. -/
theorem listed_or_full {source : Nat} {origin : Discovery α} {token : α}
    (ended : (survey.found number).length ≤ number)
    (listed : (survey.found number)[source]? = some origin)
    (shallow : origin.depth < survey.maxDepth) (letter : token ∈ survey.alphabet) :
    (∃ discovery ∈ survey.found number,
      discovery.configuration = (origin.after token).configuration ∧
        discovery.depth ≤ origin.depth + 1) ∨
      (survey.maxStates ≤ (survey.found number).length ∧
        ∀ discovery ∈ survey.found number, discovery.depth ≤ origin.depth + 1) := by
  have visited := listed_before_visit ended listed
  have layered := (survey.inLayers source).layered_succ visited
  have inside := (List.getElem?_eq_some_iff.mp listed).1
  have le : source + 1 ≤ number := Nat.lt_of_lt_of_le inside ended
  have offered : origin.after token ∈
      (survey.visitsAt source origin).filterMap Visit.discovery? :=
    mem_offered.mpr ⟨shallow, token, letter, rfl⟩
  have either : (origin.after token).configuration ∈
        Discovery.configurations (survey.found (source + 1)) ∨
      survey.maxStates ≤ (survey.found (source + 1)).length := by
    rw [found_succ visited]
    exact Discovery.mem_or_full_enlistAll offered
  rcases either with known | full
  · rcases List.mem_map.mp known with ⟨discovery, member, same⟩
    exact .inl ⟨discovery, (survey.prefix_found le).subset member, same,
      layered.bounded discovery member⟩
  · rw [found_eq_of_full full le]
    exact .inr ⟨full, layered.bounded⟩

/-- What a word reaches is listed with no greater depth than the length of the word, unless
a limit has kept it out, and then the list ends in that layer. -/
theorem listed_or_cut {length : Nat} {target : Configuration α}
    (ended : (survey.found number).length ≤ number)
    (reached : survey.start.Reaches survey.alphabet length target) :
    (∃ discovery ∈ survey.found number, discovery.configuration = target ∧
      discovery.depth ≤ length) ∨
      ((survey.maxStates ≤ (survey.found number).length ∨ survey.maxDepth < length) ∧
        ∀ discovery ∈ survey.found number, discovery.depth ≤ length) := by
  induction length generalizing target with
  | zero =>
      rw [Configuration.reaches_zero.mp reached]
      have start : ⟨survey.start, 0⟩ ∈ survey.found number :=
        (survey.prefix_found number.zero_le).subset List.mem_cons_self
      exact .inl ⟨_, start, rfl, Nat.le_refl 0⟩
  | succ length ih =>
      rcases Configuration.reaches_succ.mp reached with ⟨before, earlier, token, letter, same⟩
      rcases ih earlier with ⟨origin, member, stands, depth⟩ | ⟨limit, all⟩
      · rcases List.mem_iff_getElem?.mp member with ⟨source, listed⟩
        by_cases deep : survey.maxDepth ≤ origin.depth
        · refine .inr ⟨.inr (Nat.lt_succ_of_le (Nat.le_trans deep depth)), ?_⟩
          intro discovery other
          have within := (reaches_of_mem other).2
          exact Nat.le_succ_of_le (Nat.le_trans within (Nat.le_trans deep depth))
        · have layer : origin.depth + 1 ≤ length + 1 := Nat.succ_le_succ depth
          rcases listed_or_full ended listed (Nat.lt_of_not_le deep) letter with
            ⟨discovery, known, reaches, below⟩ | ⟨full, below⟩
          · refine .inl ⟨discovery, known, ?_, Nat.le_trans below layer⟩
            rw [reaches, same, ← stands]
            rfl
          · exact .inr ⟨.inl full, fun discovery other =>
              Nat.le_trans (below discovery other) layer⟩
      · refine .inr ⟨limit.imp_right Nat.lt_succ_of_lt, ?_⟩
        intro discovery other
        exact Nat.le_succ_of_le (all discovery other)

/-- No word that reaches a discovery is shorter than its depth. -/
theorem depth_le_of_reaches {length : Nat} {discovery : Discovery α}
    (ended : (survey.found number).length ≤ number) (member : discovery ∈ survey.found number)
    (reached : survey.start.Reaches survey.alphabet length discovery.configuration) :
    discovery.depth ≤ length := by
  rcases listed_or_cut ended reached with ⟨other, known, same, depth⟩ | ⟨_, all⟩
  · have equal := List.inj_on_of_nodup_map (survey.nodup_found number) known member same
    exact equal ▸ depth
  · exact all discovery member

end Ended

end Survey

end Residual
