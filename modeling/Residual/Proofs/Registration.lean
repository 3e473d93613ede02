import Mathlib.Data.List.Induction
import Residual.Proposition

/-!
# Registering propositions

A text is a proposition if it is one character, or the mark and one character; the mark by itself
is a character like any other. Reading such a text and writing the proposition undo each other,
so what is registered shows which texts were. A call with any other text among its texts changes
nothing and answers the first of these, so after any calls the registered propositions are those
of the last call that had none.
-/

namespace Residual

universe u

/-- One character, or the mark and one character. -/
def IsProposition (text : String) : Prop :=
  ∃ value, text.toList = [value] ∨ text.toList = [Proposition.mark, value]

instance : DecidablePred IsProposition := fun text =>
  match shape : text.toList with
  | [] => .isFalse (by simp [IsProposition, shape])
  | [value] => .isTrue ⟨value, .inl shape⟩
  | [first, value] =>
      decidable_of_iff (first = Proposition.mark) (by simp [IsProposition, shape])
  | _ :: _ :: _ :: _ => .isFalse (by simp [IsProposition, shape])

/-! ## Reading and writing a proposition -/

namespace Proposition

/-- The text of a proposition. -/
def written (proposition : Proposition) : String := String.ofList proposition.text

theorem written_eq_iff {proposition : Proposition} {text : String} :
    proposition.written = text ↔ text.toList = proposition.text := by
  constructor
  · intro same
    rw [← same, written, String.toList_ofList]
  · intro same
    rw [written, ← same, String.ofList_toList]

/-- The proposition of a text is the one that is written so. -/
theorem parse_eq_ok_iff {text : String} {proposition : Proposition} :
    parse text = .ok proposition ↔ proposition.written = text := by
  rw [written_eq_iff, parse]
  split
  · next value single =>
      rw [single]
      cases proposition with
      | token other => simp [Proposition.text]
      | nextToken other => simp [Proposition.text]
  · next first value pair =>
      rw [pair]
      cases proposition with
      | token other => split <;> simp [Proposition.text]
      | nextToken other =>
          split
          · next marked => simp [Proposition.text, marked]
          · next other => simp [Proposition.text, other]
  · next noSingle noPair =>
      cases proposition with
      | token value =>
          refine iff_of_false nofun ?_
          intro same
          exact noSingle value same
      | nextToken value =>
          refine iff_of_false nofun ?_
          intro same
          exact noPair mark value same

/-- A text that is none is answered itself. -/
theorem parse_eq_error {text : String} (other : ¬ IsProposition text) :
    parse text = .error (.unparsable text) := by
  rw [parse]
  split
  · next value single => exact absurd ⟨value, .inl single⟩ other
  · next first value pair =>
      split
      · next marked => exact absurd ⟨value, .inr (marked ▸ pair)⟩ other
      · rfl
  · rfl

end Proposition

theorem isProposition_iff {text : String} :
    IsProposition text ↔ ∃ proposition : Proposition, proposition.written = text := by
  constructor
  · intro ⟨value, shape⟩
    cases shape with
    | inl single => exact ⟨.token value, Proposition.written_eq_iff.mpr single⟩
    | inr pair => exact ⟨.nextToken value, Proposition.written_eq_iff.mpr pair⟩
  · intro ⟨proposition, same⟩
    cases proposition with
    | token value => exact ⟨value, .inl (Proposition.written_eq_iff.mp same)⟩
    | nextToken value => exact ⟨value, .inr (Proposition.written_eq_iff.mp same)⟩

/-! ## Reading several texts -/

/-- Texts that are all propositions are those of a list of propositions. -/
theorem exists_map_written {texts : List String} (good : ∀ text ∈ texts, IsProposition text) :
    ∃ propositions : List Proposition, propositions.map Proposition.written = texts := by
  induction texts with
  | nil => exact ⟨[], rfl⟩
  | cons text texts ih =>
      obtain ⟨first, same⟩ := isProposition_iff.mp (good text List.mem_cons_self)
      obtain ⟨others, rest⟩ := ih fun other member => good other (List.mem_cons_of_mem text member)
      exact ⟨first :: others, by rw [List.map_cons, same, rest]⟩

/-- Among texts that are not all propositions there is a first one that is none. -/
theorem exists_first_other {texts : List String} (other : ¬ ∀ text ∈ texts, IsProposition text) :
    ∃ text, texts.find? (fun text => ¬ IsProposition text) = some text := by
  rw [← Option.isSome_iff_exists, List.find?_isSome]
  simpa using other

/-- What was written is read again. -/
theorem mapM_parse_written (propositions : List Proposition) :
    (propositions.map Proposition.written).mapM Proposition.parse = .ok propositions := by
  induction propositions with
  | nil => rfl
  | cons proposition propositions ih =>
      rw [List.map_cons, List.mapM_cons, Proposition.parse_eq_ok_iff.mpr rfl, ih]
      rfl

/-- The first text that is no proposition is answered. -/
theorem mapM_parse_eq_error {texts : List String} {text : String}
    (first : texts.find? (fun text => ¬ IsProposition text) = some text) :
    texts.mapM Proposition.parse = .error (.unparsable text) := by
  induction texts with
  | nil => cases first
  | cons head texts ih =>
      rw [List.mapM_cons]
      by_cases good : IsProposition head
      · obtain ⟨proposition, same⟩ := isProposition_iff.mp good
        rw [List.find?_cons_of_neg (by simpa using good)] at first
        rw [Proposition.parse_eq_ok_iff.mpr same, ih first]
        rfl
      · rw [List.find?_cons_of_pos (by simpa using good)] at first
        cases first
        rw [Proposition.parse_eq_error good]
        rfl

/-! ## Calls in any order -/

namespace Registry

variable {α : Type u}

/-- A registry after several calls. -/
def registerAll (registry : Registry α) (calls : List (List String)) : Registry α :=
  calls.foldl (fun current texts => (current.register texts).value.2) registry

/-- The texts of the last call that had nothing but propositions among its texts. -/
def lastRegistered (calls : List (List String)) : List String :=
  ((calls.filter fun texts => ∀ text ∈ texts, IsProposition text).getLast?).getD []

/-- A call with texts of propositions registers these. -/
theorem value_register_written (registry : Registry α) (propositions : List Proposition) :
    (registry.register (propositions.map Proposition.written)).value =
      (.ok (List.range propositions.length), { registry with propositions }) := by
  rw [register, mapM_parse_written]
  rfl

/-- Any other call answers an error and changes nothing. -/
theorem value_register_error (registry : Registry α) {texts : List String} {text : String}
    (first : texts.find? (fun text => ¬ IsProposition text) = some text) :
    (registry.register texts).value = (.error (.unparsable text), registry) := by
  rw [register, mapM_parse_eq_error first]
  rfl

theorem registerAll_concat (registry : Registry α) (calls : List (List String))
    (texts : List String) :
    registry.registerAll (calls ++ [texts]) =
      ((registry.registerAll calls).register texts).value.2 := by
  simp only [registerAll, List.foldl_append, List.foldl_cons, List.foldl_nil]

theorem lastRegistered_concat_of_good (calls : List (List String)) {texts : List String}
    (good : ∀ text ∈ texts, IsProposition text) : lastRegistered (calls ++ [texts]) = texts := by
  rw [lastRegistered, List.filter_append, List.filter_cons_of_pos (by simpa using good),
    List.filter_nil, List.getLast?_concat, Option.getD_some]

theorem lastRegistered_concat_of_other (calls : List (List String)) {texts : List String}
    (other : ¬ ∀ text ∈ texts, IsProposition text) :
    lastRegistered (calls ++ [texts]) = lastRegistered calls := by
  rw [lastRegistered, List.filter_append, List.filter_cons_of_neg (by simpa using other),
    List.filter_nil, List.append_nil, lastRegistered]

/-- After any calls the texts of the last good call are registered. -/
theorem registerAll_new (model : Regex α) (calls : List (List String)) :
    ∃ propositions : List Proposition,
      propositions.map Proposition.written = lastRegistered calls ∧
        (new model).registerAll calls = ⟨model, propositions⟩ := by
  induction calls using List.reverseRecOn with
  | nil => exact ⟨[], rfl, rfl⟩
  | append_singleton calls texts ih =>
      obtain ⟨earlier, kept, reached⟩ := ih
      rw [registerAll_concat, reached]
      by_cases good : ∀ text ∈ texts, IsProposition text
      · obtain ⟨propositions, same⟩ := exists_map_written good
        refine ⟨propositions, ?_, ?_⟩
        · rw [same, lastRegistered_concat_of_good calls good]
        · rw [← same, value_register_written]
      · obtain ⟨text, first⟩ := exists_first_other good
        refine ⟨earlier, ?_, ?_⟩
        · rw [kept, lastRegistered_concat_of_other calls good]
        · rw [value_register_error _ first]

theorem valuations_eq_replicate (registry : Registry α) (configuration : Configuration α) :
    registry.valuations configuration =
      List.replicate registry.propositions.length false := by
  rw [valuations, List.map_eq_replicate_iff]
  intro proposition _
  cases proposition <;> rfl

theorem stepValuations_eq_valuations (registry : Registry α) (source : Configuration α)
    (action : Action) (target : Configuration α) :
    registry.stepValuations source action target = registry.valuations source := rfl

/-- After any calls the registered propositions are those of the texts of the last call with
nothing but propositions, and are written as these texts. A call with nothing but propositions
answers as many indices, any other one the first text that is none and leaves the registry as
it was. Every proposition is false in every configuration and on every step. -/
theorem registration_all_or_nothing (model : Regex α) (calls : List (List String)) :
    let registry := (new model).registerAll calls
    registry.model = model ∧
      (lastRegistered calls).mapM Proposition.parse = .ok registry.propositions ∧
      registry.propositions.map Proposition.written = lastRegistered calls ∧
      (∀ texts : List String, (∀ text ∈ texts, IsProposition text) →
        (registry.register texts).value.1 = .ok (List.range texts.length)) ∧
      (∀ texts : List String, (¬ ∀ text ∈ texts, IsProposition text) →
        ∃ text, texts.find? (fun text => ¬ IsProposition text) = some text ∧
          (registry.register texts).value = (.error (.unparsable text), registry)) ∧
      (∀ configuration, registry.valuations configuration =
        List.replicate registry.propositions.length false) ∧
      ∀ source action target, registry.stepValuations source action target =
        List.replicate registry.propositions.length false := by
  obtain ⟨propositions, kept, reached⟩ := registerAll_new model calls
  intro registry
  have shape : registry = ⟨model, propositions⟩ := reached
  refine ⟨by rw [shape], ?_, by rw [shape]; exact kept, ?_, ?_, ?_, ?_⟩
  · rw [shape, ← kept, mapM_parse_written]
  · intro texts good
    obtain ⟨others, same⟩ := exists_map_written good
    rw [← same, value_register_written, List.length_map]
  · intro texts other
    obtain ⟨text, first⟩ := exists_first_other other
    exact ⟨text, first, value_register_error registry first⟩
  · intro configuration
    rw [valuations_eq_replicate]
  · intro source action target
    rw [stepValuations_eq_valuations, valuations_eq_replicate]

/-- The mark is a token by itself. A call that fails at its second text keeps what the call
before it registered. -/
theorem registration_of_the_mark :
    let registry := (new (.token 0)).registerAll [["a", "\x27b", "\x27"], ["c", "cd"]]
    registry.propositions = [.token 'a', .nextToken 'b', .token '\x27'] ∧
      (registry.register ["\x27\x27", "x"]).value.1 = .ok [0, 1] ∧
      (registry.register ["x", "", "yz"]).value = (.error (.unparsable ""), registry) ∧
      registry.valuations ⟨.empty⟩ = [false, false, false] := by
  intro registry
  obtain ⟨_, parsed, _, answered, refused, valued, _⟩ :=
    registration_all_or_nothing (.token 0) [["a", "\x27b", "\x27"], ["c", "cd"]]
  have registered : registry.propositions = [.token 'a', .nextToken 'b', .token '\x27'] := by
    have read : (lastRegistered [["a", "\x27b", "\x27"], ["c", "cd"]]).mapM Proposition.parse =
        .ok [.token 'a', .nextToken 'b', .token '\x27'] := by decide
    exact Except.ok.inj (parsed.symm.trans read)
  refine ⟨registered, answered _ (by decide), ?_, ?_⟩
  · obtain ⟨text, first, same⟩ := refused ["x", "", "yz"] (by decide)
    have empty : ["x", "", "yz"].find? (fun text => ¬ IsProposition text) = some "" := by decide
    rw [same, Option.some.inj (first.symm.trans empty)]
  · exact (valued ⟨.empty⟩).trans (by rw [registered]; rfl)

end Registry

end Residual
