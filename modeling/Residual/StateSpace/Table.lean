import Std.Data.HashMap
import Residual.StateSpace.Basic

/-!
# Tables of distinct states

While states are discovered, each configuration has to be recognised when it turns up
again. A table numbers states in the order in which they were added and finds the number
of a configuration by hashing. That the hash table agrees with the list of states is part
of the type, so everything about a table can be said about its list.
-/

namespace Residual

open Std

universe u

/-- States with different configurations, found again by their configuration. -/
structure StateTable (α : Type u) [DecidableEq α] [Hashable α] where
  states : Array (ExploredState α)
  numbers : HashMap (Configuration α) Nat
  numbers_eq : ∀ configuration, numbers[configuration]? =
    (states.toList.map (·.configuration)).findIdx? (· == configuration)
  distinct : (states.toList.map (·.configuration)).Nodup

namespace StateTable

variable {α : Type u}

/-- Marking a state does not change the configurations. -/
theorem map_configuration_modify (states : List (ExploredState α)) (number : Nat) :
    (states.modify number fun state => { state with truncated := true }).map
      (·.configuration) = states.map (·.configuration) := by
  apply List.ext_getElem?
  intro position
  simp only [List.getElem?_map, List.getElem?_modify]
  cases states[position]? with
  | none => rfl
  | some state =>
      simp only [Option.map_eq_map, Option.map_some]
      split <;> rfl

variable [DecidableEq α] [Hashable α]

/-- The table without states. -/
def empty : StateTable α where
  states := #[]
  numbers := ∅
  numbers_eq := by simp
  distinct := by simp

/-- The states in the order of their numbers. -/
def toList (table : StateTable α) : List (ExploredState α) := table.states.toList

/-- The configurations in the order of their numbers. -/
def configurations (table : StateTable α) : List (Configuration α) :=
  table.toList.map (·.configuration)

/-- The number of states. -/
def size (table : StateTable α) : Nat := table.states.size

theorem length_toList (table : StateTable α) : table.toList.length = table.size := rfl

/-- The number of a configuration. -/
def find? (table : StateTable α) (configuration : Configuration α) : Option Nat :=
  table.numbers[configuration]?

@[simp] theorem find?_empty (configuration : Configuration α) :
    (empty : StateTable α).find? configuration = none := by
  simp [find?, empty]

@[simp] theorem toList_empty : (empty : StateTable α).toList = [] := rfl

@[simp] theorem size_empty : (empty : StateTable α).size = 0 := rfl

theorem find?_eq (table : StateTable α) (configuration : Configuration α) :
    table.find? configuration = table.configurations.findIdx? (· == configuration) :=
  table.numbers_eq configuration

/-- A configuration without a number is not in the table. -/
theorem find?_eq_none {table : StateTable α} {configuration : Configuration α} :
    table.find? configuration = none ↔ configuration ∉ table.configurations := by
  rw [find?_eq, List.findIdx?_eq_none_iff]
  constructor
  · intro differ member
    simpa using differ configuration member
  · intro absent other member
    rw [beq_eq_false_iff_ne]
    rintro rfl
    exact absent member

/-- A number found belongs to the state with that configuration. -/
theorem find?_eq_some {table : StateTable α} {configuration : Configuration α} {number : Nat} :
    table.find? configuration = some number ↔
      table.configurations[number]? = some configuration := by
  have distinct : table.configurations.Nodup := table.distinct
  rw [find?_eq, List.findIdx?_eq_some_iff_getElem]
  constructor
  · rintro ⟨inside, equal, _⟩
    rw [List.getElem?_eq_getElem inside, beq_iff_eq.mp equal]
  · intro found
    obtain ⟨inside, equal⟩ := List.getElem?_eq_some_iff.mp found
    refine ⟨inside, beq_iff_eq.mpr equal, ?_⟩
    intro earlier before same
    have sameItem := (beq_iff_eq.mp same).trans equal.symm
    have := (List.getElem_inj distinct).mp sameItem
    omega

/-- An index stays right when a state with a new configuration goes to the end. -/
theorem getElem?_insert_push (table : StateTable α) (state : ExploredState α)
    (absent : table.find? state.configuration = none) (configuration : Configuration α) :
    (table.numbers.insert state.configuration table.size)[configuration]? =
      ((table.states.push state).toList.map (·.configuration)).findIdx?
        (· == configuration) := by
  have missing := (table.find?_eq state.configuration).symm.trans absent
  have old := table.find?_eq configuration
  simp only [find?, configurations, toList] at missing old
  rw [HashMap.getElem?_insert, Array.toList_push, List.map_append, List.findIdx?_append]
  by_cases equal : state.configuration = configuration
  · subst equal
    simp [missing, size]
  · simp [equal, old]

/-- Configurations stay distinct when a new one goes to the end. -/
theorem nodup_push (table : StateTable α) (state : ExploredState α)
    (absent : table.find? state.configuration = none) :
    ((table.states.push state).toList.map (·.configuration)).Nodup := by
  have absent := find?_eq_none.mp absent
  rw [Array.toList_push, List.map_append, List.nodup_append]
  refine ⟨table.distinct, by simp, ?_⟩
  intro left leftMem right rightMem equal
  simp only [List.map_cons, List.map_nil, List.mem_singleton] at rightMem
  subst rightMem
  subst equal
  exact absent leftMem

/-- Adds a state whose configuration is new. Its number is the number of states before it. -/
def add (table : StateTable α) (state : ExploredState α)
    (absent : table.find? state.configuration = none) : StateTable α :=
  let number := table.size
  { states := table.states.push state
    numbers := table.numbers.insert state.configuration number
    numbers_eq := table.getElem?_insert_push state absent
    distinct := table.nodup_push state absent }

@[simp] theorem toList_add (table : StateTable α) (state : ExploredState α)
    (absent : table.find? state.configuration = none) :
    (table.add state absent).toList = table.toList ++ [state] := by
  simp [add, toList]

@[simp] theorem size_add (table : StateTable α) (state : ExploredState α)
    (absent : table.find? state.configuration = none) :
    (table.add state absent).size = table.size + 1 := by
  simp [add, size]

/-- Marks a state as not followed completely. -/
def truncate (table : StateTable α) (number : Nat) : StateTable α where
  states := table.states.modify number fun state => { state with truncated := true }
  numbers := table.numbers
  numbers_eq := by
    rw [Array.toList_modify, map_configuration_modify]
    exact table.numbers_eq
  distinct := by
    rw [Array.toList_modify, map_configuration_modify]
    exact table.distinct

@[simp] theorem toList_truncate (table : StateTable α) (number : Nat) :
    (table.truncate number).toList =
      table.toList.modify number fun state => { state with truncated := true } := by
  simp [truncate, toList]

@[simp] theorem size_truncate (table : StateTable α) (number : Nat) :
    (table.truncate number).size = table.size := by
  simp [truncate, size]

@[simp] theorem configurations_truncate (table : StateTable α) (number : Nat) :
    (table.truncate number).configurations = table.configurations := by
  rw [configurations, toList_truncate, map_configuration_modify, configurations]

end StateTable

end Residual
