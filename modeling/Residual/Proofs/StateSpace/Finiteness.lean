import Mathlib.Data.List.Perm.Subperm
import Residual.Proofs.Regex.Growth
import Residual.Proofs.StateSpace.Automaton
import Residual.Proofs.StateSpace.BreadthFirst
import Residual.Proofs.Transition.Revisits

/-!
# When a state space is finite

Residuals are not simplified, so an expression either grows with every token or it is flat.
In the first case no configuration ever comes back, and an exploration that has a token to
derive by is cut off by its limits, however large they are. In the second case there are at
most two configurations besides one for each token: every third one is the tree with `∅` at
all leaves. Then each long word comes back to it, and modest limits suffice.
-/

namespace Residual

universe u

variable {α : Type u} [DecidableEq α]

namespace Regex

variable {regex : Regex α} {word : List α}

/-- An expression that grows never comes back. -/
theorem not_revisits_of_growing (growing : ¬ regex.Flat) {index : Nat}
    (inside : index < word.length) : ¬ regex.Revisits word index := by
  intro revisit
  rcases revisit with ⟨earlier, before, same⟩
  apply residual_ne growing _ same
  rw [List.length_take_of_le (Nat.le_of_lt (Nat.lt_trans before inside)),
    List.length_take_of_le (Nat.le_of_lt inside)]
  exact Nat.ne_of_lt before

/-- A flat expression stands behind three tokens where it stood behind two. -/
theorem revisits_three_of_flat (flat : regex.Flat) (long : 3 ≤ word.length) :
    regex.Revisits word 3 := by
  have second : 2 ≤ (word.take 2).length := by
    rw [List.length_take_of_le (Nat.le_of_succ_le long)]
  have third : 2 ≤ (word.take 3).length := by
    rw [List.length_take_of_le long]
    exact Nat.le_succ 2
  refine ⟨2, Nat.lt_succ_self 2, ?_⟩
  rw [residual_eq_hollow flat second, residual_eq_hollow flat third]

end Regex

namespace Configuration

variable {start target : Configuration α} {alphabet : List α} {length : Nat}

/-- All configurations that a flat expression can come to. -/
def flatTargets (start : Configuration α) (alphabet : List α) : List (Configuration α) :=
  start :: ⟨start.expression.hollow⟩ ::
    alphabet.eraseDups.map fun token => ⟨start.expression.derive token⟩

theorem length_flatTargets (start : Configuration α) (alphabet : List α) :
    (start.flatTargets alphabet).length = alphabet.eraseDups.length + 2 := by
  rw [flatTargets, List.length_cons, List.length_cons, List.length_map]

/-- What a flat expression reaches it reaches by two tokens at most. -/
theorem Reaches.exists_short (flat : start.expression.Flat)
    (reached : start.Reaches alphabet length target) :
    ∃ short ≤ 2, start.Reaches alphabet short target := by
  rcases reached with ⟨word, letters, long, same⟩
  rcases Nat.le_total word.length 2 with few | many
  · exact ⟨word.length, few, word, letters, rfl, same⟩
  · have short : (word.take 2).length = 2 := List.length_take_of_le many
    refine ⟨2, Nat.le_refl 2, word.take 2, ?_, short, ?_⟩
    · intro token member
      exact letters token (List.mem_of_mem_take member)
    · rw [same, Regex.residual_eq_hollow flat many,
        Regex.residual_eq_hollow flat (Nat.le_of_eq short.symm)]

theorem Reaches.mem_flatTargets (flat : start.expression.Flat)
    (reached : start.Reaches alphabet length target) :
    target ∈ start.flatTargets alphabet := by
  rcases reached.exists_short flat with ⟨short, few, word, letters, long, same⟩
  rw [same]
  match word, long with
  | [], _ => exact List.mem_cons_self
  | [token], _ =>
      apply List.mem_cons_of_mem
      apply List.mem_cons_of_mem
      have letter := List.mem_eraseDups.mpr (letters token List.mem_cons_self)
      exact List.mem_map_of_mem letter
  | first :: second :: rest, _ =>
      have many : 2 ≤ (first :: second :: rest).length := Nat.le_add_left 2 rest.length
      rw [Regex.residual_eq_hollow flat many]
      exact List.mem_cons_of_mem _ List.mem_cons_self

end Configuration

namespace Survey

variable {survey : Survey α} {number : Nat}

theorem depth_le_two_of_flat (flat : survey.start.expression.Flat)
    (ended : (survey.found number).length ≤ number) {discovery : Discovery α}
    (member : discovery ∈ survey.found number) : discovery.depth ≤ 2 := by
  rcases (reaches_of_mem member).1.exists_short flat with ⟨short, few, reached⟩
  exact Nat.le_trans (depth_le_of_reaches ended member reached) few

/-- The listed configurations are among those of a flat expression, so if they fill the room
for so many, they are all of them. -/
theorem mem_found_of_flat (flat : survey.start.expression.Flat)
    (full : survey.alphabet.eraseDups.length + 2 ≤ (survey.found number).length)
    {length : Nat} {target : Configuration α}
    (reached : survey.start.Reaches survey.alphabet length target) :
    target ∈ Discovery.configurations (survey.found number) := by
  have among : Discovery.configurations (survey.found number) ⊆
      survey.start.flatTargets survey.alphabet := by
    intro configuration listed
    rcases List.mem_map.mp listed with ⟨discovery, member, stands⟩
    rw [← stands]
    exact (reaches_of_mem member).1.mem_flatTargets flat
  have most : (survey.start.flatTargets survey.alphabet).length ≤
      (Discovery.configurations (survey.found number)).length := by
    rw [Configuration.length_flatTargets, Discovery.configurations, List.length_map]
    exact full
  have all := (List.subperm_of_subset (survey.nodup_found number) among).perm_of_length_le most
  exact all.mem_iff.mpr (reached.mem_flatTargets flat)

end Survey

namespace Relation

variable [Hashable α] {relation : Relation α} {scope : Scope α}

theorem value_firstRevisit_of_growing (growing : ¬ relation.expression.Flat)
    (word : List α) : (relation.firstRevisit word).value = none := by
  rw [value_firstRevisit, List.find?_eq_none]
  intro index inside
  rw [decide_eq_true_iff]
  exact Regex.not_revisits_of_growing growing (List.mem_range.mp inside)

theorem value_firstRevisit_of_flat (flat : relation.expression.Flat) {word : List α}
    (long : 4 ≤ word.length) :
    ∃ index ≤ 3, (relation.firstRevisit word).value = some index := by
  have back : decide (relation.expression.Revisits word 3) = true :=
    decide_eq_true (Regex.revisits_three_of_flat flat (Nat.le_of_succ_le long))
  rw [value_firstRevisit]
  cases found : (List.range word.length).find? fun index =>
      decide (relation.expression.Revisits word index) with
  | none =>
      have missed := List.find?_eq_none.mp found 3 (List.mem_range.mpr long)
      exact absurd back missed
  | some index =>
      refine ⟨index, ?_, rfl⟩
      apply Nat.le_of_not_lt
      intro later
      have earliest := (List.find?_range_eq_some.mp found).2.2 3 later
      rw [back] at earliest
      cases earliest

/-- Without limits the states would have to stand for words of every length, but no state is
deeper than the limit. -/
theorem truncated_of_growing (growing : ¬ relation.expression.Flat)
    (letters : relation.explorationAlphabet scope ≠ []) :
    (relation.explore scope).value.truncated = true := by
  apply Bool.eq_true_of_not_eq_false
  intro complete
  rcases List.exists_mem_of_ne_nil _ letters with ⟨token, letter⟩
  have represents := explore_represents relation scope
  rcases represents.initial with ⟨first, initial, beginning⟩
  let word := List.replicate (scope.maxDepth + 1) token
  have spelled : ∀ other ∈ word, other ∈ relation.explorationAlphabet scope := by
    intro other member
    exact List.eq_of_mem_replicate member ▸ letter
  rcases represents.exists_path complete spelled initial with ⟨path, last, walk, spells⟩
  rcases represents.residual walk initial with ⟨state, listed, stands, _⟩
  rcases relation.reaches_state scope (Array.mem_of_getElem? listed) with
    ⟨⟨other, _, long, reached⟩, within⟩
  rw [stands, beginning, spells] at reached
  have different : word.length ≠ other.length := by
    rw [long, List.length_replicate]
    exact Nat.ne_of_gt (Nat.lt_succ_of_le within)
  exact Regex.residual_ne growing different (congrArg Configuration.expression reached)

/-- The limits that a flat expression needs: its states are no deeper than two tokens, and
there are no more of them than there is room for. -/
theorem not_truncated_of_flat (flat : relation.expression.Flat) (deep : 3 ≤ scope.maxDepth)
    (room : (relation.explorationAlphabet scope).eraseDups.length + 2 ≤ scope.maxStates) :
    (relation.explore scope).value.truncated = false := by
  rcases relation.exists_ended scope with ⟨number, ended, _⟩
  have somewhere : scope.maxStates ≠ 0 :=
    Nat.ne_of_gt (Nat.lt_of_lt_of_le (Nat.succ_pos _) room)
  apply not_truncated_of_ended somewhere ended
  intro origin member
  have near := Survey.depth_le_two_of_flat flat ended member
  refine ⟨Nat.lt_of_le_of_lt near deep, ?_⟩
  intro token letter
  have next : relation.start.Reaches (relation.explorationAlphabet scope) (origin.depth + 1)
      (origin.after token).configuration :=
    Configuration.reaches_succ.mpr
      ⟨origin.configuration, (Survey.reaches_of_mem member).1, token, letter, rfl⟩
  rcases Survey.listed_or_cut ended next with ⟨discovery, known, same, _⟩ | ⟨limit, _⟩
  · rw [← same]
    exact List.mem_map_of_mem known
  · rcases limit with full | beyond
    · exact Survey.mem_found_of_flat flat (Nat.le_trans room full) next
    · exact absurd beyond (Nat.not_lt.mpr (Nat.le_trans (Nat.succ_le_succ near) deep))

end Relation

end Residual
