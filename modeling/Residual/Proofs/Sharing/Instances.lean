import Mathlib.Data.List.Induction
import Residual.Sharing.Workspace

/-!
# One number, one node

A serial number is meant to tell instances apart, which it does only if no two different
nodes carry the same one. The ledger of a workspace lists all nodes ever made, each at
the position of its number. Every operation takes its numbers from the end of the ledger,
so it can be carried on by the nodes that are new, and an operand that is shared stands in
it already.
-/

namespace Residual

universe u

namespace Node

variable {α : Type u}

/-- A node and all below it, every node before its operands and these from left to right.
A node is listed once for every way that leads to it. -/
def occurrences (node : Node α) : List (Node α) :=
  node :: match node with
    | .empty _ | .epsilon _ | .token _ _ => []
    | .union _ left right | .concat _ left right => left.occurrences ++ right.occurrences
    | .star _ inner => inner.occurrences

theorem occurrences_eq (node : Node α) :
    node.occurrences = node :: node.operands.flatMap occurrences := by
  cases node <;> simp [occurrences, operands]

@[simp] theorem self_mem_occurrences (node : Node α) : node ∈ node.occurrences := by
  rw [occurrences_eq]
  exact List.mem_cons_self

theorem mem_occurrences {part node : Node α} :
    part ∈ node.occurrences ↔
      part = node ∨ ∃ operand ∈ node.operands, part ∈ operand.occurrences := by
  rw [occurrences_eq, List.mem_cons, List.mem_flatMap]

theorem mem_occurrences_of_operand {part operand node : Node α}
    (member : operand ∈ node.operands) (below : part ∈ operand.occurrences) :
    part ∈ node.occurrences :=
  mem_occurrences.mpr (.inr ⟨operand, member, below⟩)

/-- An operand has fewer nodes below it than the node it belongs to. -/
theorem length_occurrences_lt {operand node : Node α} (member : operand ∈ node.operands) :
    operand.occurrences.length < node.occurrences.length := by
  rw [occurrences_eq node, List.length_cons, Nat.lt_succ_iff]
  exact (List.sublist_flatten_of_mem (List.mem_map_of_mem member)).length_le

/-- Whatever is proved of a node from its operands holds of all nodes. -/
theorem operands_induction {motive : Node α → Prop}
    (step : ∀ node, (∀ operand ∈ node.operands, motive operand) → motive node)
    (node : Node α) : motive node :=
  step node fun operand member =>
    have := length_occurrences_lt member
    operands_induction step operand
termination_by node.occurrences.length

theorem mem_occurrences_trans {part middle node : Node α} (below : part ∈ middle.occurrences)
    (within : middle ∈ node.occurrences) : part ∈ node.occurrences := by
  induction node using operands_induction with
  | step node below_operand =>
      rcases mem_occurrences.mp within with rfl | ⟨operand, member, within⟩
      · exact below
      · exact mem_occurrences_of_operand member (below_operand operand member within)

theorem operand_mem_occurrences {part operand node : Node α}
    (below : part ∈ node.occurrences) (member : operand ∈ part.operands) :
    operand ∈ node.occurrences :=
  mem_occurrences_trans (mem_occurrences_of_operand member (self_mem_occurrences operand)) below

/-- A proper part of a node has fewer nodes below it. -/
theorem eq_or_length_occurrences_lt {part node : Node α} (below : part ∈ node.occurrences) :
    part = node ∨ part.occurrences.length < node.occurrences.length := by
  induction node using operands_induction with
  | step node shorter =>
      rcases mem_occurrences.mp below with same | ⟨operand, member, below⟩
      · exact .inl same
      · refine .inr ?_
        rcases shorter operand member below with rfl | less
        · exact length_occurrences_lt member
        · exact Nat.lt_trans less (length_occurrences_lt member)

/-- Every node of the expression stands in the ledger at the position of its number. -/
def Recorded (ledger : List (Node α)) (node : Node α) : Prop :=
  ∀ part ∈ node.occurrences, ledger[part.serial]? = some part

namespace Recorded

variable {ledger : List (Node α)} {node : Node α}

theorem self (recorded : Recorded ledger node) : ledger[node.serial]? = some node :=
  recorded node (self_mem_occurrences node)

theorem part (recorded : Recorded ledger node) {part : Node α}
    (below : part ∈ node.occurrences) : Recorded ledger part :=
  fun lower within => recorded lower (mem_occurrences_trans within below)

theorem operand (recorded : Recorded ledger node) {operand : Node α}
    (member : operand ∈ node.operands) : Recorded ledger operand :=
  recorded.part (mem_occurrences_of_operand member (self_mem_occurrences operand))

/-- A node is recorded where it stands itself and its operands are recorded. -/
theorem of_operands (self : ledger[node.serial]? = some node)
    (operands : ∀ operand ∈ node.operands, Recorded ledger operand) :
    Recorded ledger node := by
  intro part below
  rcases mem_occurrences.mp below with rfl | ⟨operand, member, below⟩
  · exact self
  · exact operands operand member part below

theorem of_single {inner : Node α} (self : ledger[node.serial]? = some node)
    (operands : node.operands = [inner]) (innerRecorded : Recorded ledger inner) :
    Recorded ledger node := by
  refine .of_operands self fun operand member => ?_
  rw [operands] at member
  exact List.mem_singleton.mp member ▸ innerRecorded

theorem of_pair {left right : Node α} (self : ledger[node.serial]? = some node)
    (operands : node.operands = [left, right]) (leftRecorded : Recorded ledger left)
    (rightRecorded : Recorded ledger right) : Recorded ledger node := by
  refine .of_operands self fun operand member => ?_
  rw [operands] at member
  rcases List.mem_cons.mp member with rfl | member
  · exact leftRecorded
  · exact List.mem_singleton.mp member ▸ rightRecorded

/-- What is recorded stays recorded. -/
theorem append (recorded : Recorded ledger node) (added : List (Node α)) :
    Recorded (ledger ++ added) node := by
  intro part below
  have found := recorded part below
  rw [List.getElem?_append_left (List.getElem?_eq_some_iff.mp found).1]
  exact found

/-- Nodes with one number are one node. -/
theorem eq_of_serial_eq {other : Node α} (recorded : Recorded ledger node)
    (otherRecorded : Recorded ledger other) (same : node.serial = other.serial) :
    node = other := by
  have found := recorded.self
  rw [same, otherRecorded.self] at found
  exact (Option.some.inj found).symm

end Recorded

/-- What an operation returns: a node that can be recorded by carrying the ledger on, and
the number behind the last entry. -/
def Extends (ledger : List (Node α)) (made : Node α × Nat) : Prop :=
  ∃ added, (ledger ++ added).length = made.2 ∧ Recorded (ledger ++ added) made.1

namespace Extends

variable {ledger : List (Node α)} {node left right : Node α} {middle next : Nat}

/-- A node that is recorded already takes no number. -/
theorem of_recorded (recorded : Recorded ledger node) : Extends ledger (node, ledger.length) :=
  ⟨[], by rw [List.append_nil], by rw [List.append_nil]; exact recorded⟩

/-- Places may be kept for nodes that are known only later. -/
theorem of_append (added : List (Node α)) (made : Extends (ledger ++ added) (node, next)) :
    Extends ledger (node, next) := by
  obtain ⟨further, counted, recorded⟩ := made
  rw [List.append_assoc] at counted recorded
  exact ⟨added ++ further, counted, recorded⟩

/-- A new node over operands that are recorded already takes one number. -/
theorem of_new (number : ledger.length = node.serial)
    (operands : ∀ operand ∈ node.operands, Recorded ledger operand) :
    Extends ledger (node, node.serial + 1) := by
  refine ⟨[node], by rw [List.length_append, number]; rfl, .of_operands ?_ fun operand member =>
    (operands operand member).append [node]⟩
  rw [← number, List.getElem?_concat_length]

/-- A new node takes its number before its only operand is made. -/
theorem single (number : ledger.length = node.serial) (operands : node.operands = [left])
    (made : Extends (ledger ++ [node]) (left, next)) : Extends ledger (node, next) := by
  obtain ⟨added, counted, recorded⟩ := made
  refine of_append [node] ⟨added, counted, .of_single ?_ operands recorded⟩
  rw [← number]
  simp

/-- A new node takes its number before its two operands are made. -/
theorem pair (number : ledger.length = node.serial) (operands : node.operands = [left, right])
    (leftMade : Extends (ledger ++ [node]) (left, middle))
    (rightMade : ∀ added, (ledger ++ [node] ++ added).length = middle →
      Extends (ledger ++ [node] ++ added) (right, next)) :
    Extends ledger (node, next) := by
  obtain ⟨one, oneCounted, leftRecorded⟩ := leftMade
  obtain ⟨two, twoCounted, rightRecorded⟩ := rightMade one oneCounted
  refine of_append [node] (of_append one
    ⟨two, twoCounted, .of_pair ?_ operands (leftRecorded.append two) rightRecorded⟩)
  rw [← number]
  simp

end Extends

theorem fresh_extends (regex : Regex α) {ledger : List (Node α)} {next : Nat}
    (length : ledger.length = next) : Extends ledger (fresh regex next) := by
  induction regex generalizing ledger next with
  | empty | epsilon | token => exact .of_new length (by simp [operands])
  | union left right leftMade rightMade | concat left right leftMade rightMade =>
      exact .pair length rfl (leftMade (by simp [length])) fun added => rightMade
  | star inner made => exact .single length rfl (made (by simp [length]))

theorem delta_extends (node : Node α) {ledger : List (Node α)} {next : Nat}
    (length : ledger.length = next) : Extends ledger (node.delta next) := by
  induction node generalizing ledger next with
  | empty | epsilon | token | star => exact .of_new length (by simp [operands])
  | union _ left right leftMade rightMade | concat _ left right leftMade rightMade =>
      exact .pair length rfl (leftMade (by simp [length])) fun added => rightMade

/-- A derivative shares operands with the expression it is taken of, and these stand in the
ledger. -/
theorem derive_extends [DecidableEq α] (token : α) {node : Node α} {ledger : List (Node α)}
    {next : Nat} (recorded : Recorded ledger node) (length : ledger.length = next) :
    Extends ledger (node.derive token next) := by
  induction node generalizing ledger next with
  | empty | epsilon => exact .of_new length (by simp [operands])
  | token _ value =>
      simp only [derive]
      split
      · exact .of_new length (by simp [operands])
      · exact .of_new length (by simp [operands])
  | union _ left right leftMade rightMade =>
      refine .pair length rfl
        (leftMade ((recorded.operand (by simp [operands])).append _) (by simp [length]))
        fun added => rightMade ?_
      rw [List.append_assoc]
      exact (recorded.operand (by simp [operands])).append _
  | concat _ left right leftMade rightMade =>
      have leftRecorded : Recorded ledger left := recorded.operand (by simp [operands])
      have rightRecorded : Recorded ledger right := recorded.operand (by simp [operands])
      rcases derivedMade : left.derive token (next + 3) with ⟨derived, first⟩
      rcases deltaMade : left.delta first with ⟨delta, second⟩
      rcases continuedMade : right.derive token second with ⟨continued, third⟩
      simp only [derive, derivedMade, deltaMade, continuedMade]
      -- The union and its operands take their numbers before all that is below them.
      let head := Node.concat (next + 1) derived right
      let tail := Node.concat (next + 2) delta continued
      let reserved := [.union next head tail, head, tail]
      obtain ⟨one, oneCounted, derivedRecorded⟩ := derivedMade ▸
        leftMade (leftRecorded.append reserved) (by simp [length, reserved])
      obtain ⟨two, twoCounted, deltaRecorded⟩ := deltaMade ▸ delta_extends left oneCounted
      obtain ⟨three, threeCounted, continuedRecorded⟩ := continuedMade ▸
        rightMade (((rightRecorded.append reserved).append one).append two) twoCounted
      have headRecorded : Recorded (ledger ++ reserved ++ one ++ two ++ three) head :=
        .of_pair (by simp [head, serial, reserved, ← length]) rfl
          ((derivedRecorded.append two).append three)
          ((((rightRecorded.append reserved).append one).append two).append three)
      have tailRecorded : Recorded (ledger ++ reserved ++ one ++ two ++ three) tail :=
        .of_pair (by simp [tail, serial, reserved, ← length]) rfl
          (deltaRecorded.append three) continuedRecorded
      exact .of_append reserved (.of_append one (.of_append two ⟨three, threeCounted,
        .of_pair (by simp [serial, reserved, head, tail, ← length]) rfl headRecorded tailRecorded⟩))
  | star _ inner made =>
      have innerRecorded : Recorded ledger inner := recorded.operand (by simp [operands])
      rcases derivedMade : inner.derive token (next + 2) with ⟨derived, following⟩
      simp only [derive, derivedMade]
      let again := Node.star (next + 1) inner
      let reserved := [.concat next derived again, again]
      obtain ⟨added, counted, derivedRecorded⟩ := derivedMade ▸
        made (innerRecorded.append reserved) (by simp [length, reserved])
      have againRecorded : Recorded (ledger ++ reserved ++ added) again :=
        .of_single (by simp [again, serial, reserved, ← length]) rfl
          ((innerRecorded.append reserved).append added)
      exact .of_append reserved ⟨added, counted,
        .of_pair (by simp [serial, reserved, again, ← length]) rfl derivedRecorded againRecorded⟩

/-- Deriving token after token carries the ledger on each time. -/
theorem residual_extends [DecidableEq α] (word : List α) {node : Node α}
    {ledger : List (Node α)} {next : Nat} (recorded : Recorded ledger node)
    (length : ledger.length = next) : Extends ledger (node.residual word next) := by
  induction word generalizing node ledger next with
  | nil => exact length ▸ .of_recorded recorded
  | cons token word made =>
      obtain ⟨added, counted, derived⟩ := derive_extends token recorded length
      exact .of_append added (made derived counted)

end Node

namespace Workspace

variable {α : Type u}

/-- The ledger lists the nodes of all registers, and the next free number is its length. -/
structure KeptBy (ledger : List (Node α)) (workspace : Workspace α) : Prop where
  length : ledger.length = workspace.next
  recorded : ∀ {register shared}, workspace.find register = .ok shared →
    Node.Recorded ledger shared.node

theorem find_eq_ok {workspace : Workspace α} {register : Nat} {shared : Shared α} :
    workspace.find register = .ok shared ↔
      workspace.registers[register]? = some (some shared) := by
  unfold find
  split <;> simp_all

theorem find_skip {workspace : Workspace α} {register : Nat} {shared : Shared α}
    (found : workspace.skip.find register = .ok shared) :
    workspace.find register = .ok shared := by
  rw [find_eq_ok, skip, Array.getElem?_push] at found
  split at found
  · nomatch found
  · exact find_eq_ok.mpr found

theorem find_store {workspace : Workspace α} {stored shared : Shared α} {next register : Nat}
    (found : (workspace.store stored next).find register = .ok shared) :
    shared = stored ∨ workspace.find register = .ok shared := by
  rw [find_eq_ok, store, Array.getElem?_push] at found
  split at found
  · exact .inl (Option.some.inj (Option.some.inj found)).symm
  · exact .inr (find_eq_ok.mpr found)

theorem start_keptBy : KeptBy [] (start : Workspace α) where
  length := rfl
  recorded found := by simp [find_eq_ok, start] at found

theorem KeptBy.skip {ledger : List (Node α)} {workspace : Workspace α}
    (kept : KeptBy ledger workspace) : KeptBy ledger workspace.skip where
  length := kept.length
  recorded found := kept.recorded (find_skip found)

/-- An expression that carries the ledger on can be put into a register. -/
theorem KeptBy.store {ledger : List (Node α)} {workspace : Workspace α}
    (kept : KeptBy ledger workspace) {shared : Shared α} {next : Nat}
    (made : Node.Extends ledger (shared.node, next)) :
    ∃ added, KeptBy (ledger ++ added) (workspace.store shared next) := by
  obtain ⟨added, counted, recorded⟩ := made
  refine ⟨added, counted, fun found => ?_⟩
  rcases find_store found with rfl | found
  · exact recorded
  · exact (kept.recorded found).append added

/-- A step that uses a register finds an expression in it. -/
theorem find_bind_eq_ok {β : Type u} {workspace : Workspace α} {register : Nat} {result : β}
    {build : Shared α → Except ConstructionError β}
    (built : workspace.find register >>= build = .ok result) :
    ∃ shared, workspace.find register = .ok shared ∧ build shared = .ok result := by
  cases found : workspace.find register with
  | error error =>
      rw [found] at built
      nomatch built
  | ok shared =>
      rw [found] at built
      exact ⟨shared, rfl, built⟩

/-- All nodes of an expression that was read are new. -/
theorem readInto_extends {reader : TextReader α} {text : String} {ledger : List (Node α)}
    {shared : Shared α} {free next : Nat} (length : ledger.length = free)
    (made : (readInto reader text free).value = .ok (shared, next)) :
    Node.Extends ledger (shared.node, next) := by
  simp only [readInto, Logged.value_map] at made
  split at made
  · cases made
    exact Node.fresh_extends _ length
  · nomatch made

variable [DecidableEq α] [Spelled α]

/-- What a step builds carries the ledger on. -/
theorem KeptBy.construct_extends {ledger : List (Node α)} {workspace : Workspace α}
    (kept : KeptBy ledger workspace) {reader : TextReader α} {step : Construction α}
    {shared : Shared α} {next : Nat}
    (made : (workspace.construct reader step).value = .ok (shared, next)) :
    Node.Extends ledger (shared.node, next) := by
  cases step with
  | empty | epsilon | token value =>
      cases made
      exact Node.fresh_extends _ kept.length
  | union left right | concat left right =>
      obtain ⟨left, leftFound, made⟩ := find_bind_eq_ok made
      obtain ⟨right, rightFound, made⟩ := find_bind_eq_ok made
      cases made
      refine .of_new kept.length fun operand member => ?_
      rcases List.mem_cons.mp member with rfl | member
      · exact kept.recorded leftFound
      · exact List.mem_singleton.mp member ▸ kept.recorded rightFound
  | star inner =>
      obtain ⟨inner, found, made⟩ := find_bind_eq_ok made
      cases made
      exact .of_new kept.length fun operand member =>
        List.mem_singleton.mp member ▸ kept.recorded found
  | parse text => exact readInto_extends kept.length made
  | reparse source =>
      simp only [construct] at made
      split at made
      · exact readInto_extends kept.length made
      · nomatch made
  | derive source token =>
      obtain ⟨shared, found, made⟩ := find_bind_eq_ok made
      cases made
      exact Node.derive_extends token (kept.recorded found) kept.length
  | residual source word =>
      obtain ⟨shared, found, made⟩ := find_bind_eq_ok made
      cases made
      exact Node.residual_extends word (kept.recorded found) kept.length
  | delta source =>
      obtain ⟨shared, found, made⟩ := find_bind_eq_ok made
      cases made
      exact Node.delta_extends shared.node kept.length
  | operand source position =>
      obtain ⟨whole, found, made⟩ := find_bind_eq_ok made
      split at made
      · next operand taken =>
          cases made
          have member := whole.node_operand? position
          rw [taken] at member
          exact kept.length ▸ .of_recorded
            ((kept.recorded found).operand (List.mem_of_getElem? member.symm))
      · nomatch made

/-- Every step, also one that fails, leaves a workspace whose nodes can be told apart. -/
theorem KeptBy.perform {ledger : List (Node α)} {workspace : Workspace α}
    (kept : KeptBy ledger workspace) (reader : TextReader α) (step : Construction α) :
    ∃ added, KeptBy (ledger ++ added) (workspace.perform reader step).value.2 := by
  simp only [Workspace.perform, Logged.value_map]
  split
  · next made => exact kept.store (kept.construct_extends made)
  · exact ⟨[], by rw [List.append_nil]; exact kept.skip⟩

/-- The workspace behind a sequence of steps, of which some may have failed. -/
def after (reader : TextReader α) (steps : List (Construction α)) : Workspace α :=
  steps.foldl (fun workspace step => (workspace.perform reader step).value.2) start

/-- Some ledger keeps the workspace behind every sequence of steps. -/
theorem after_keptBy (reader : TextReader α) (steps : List (Construction α)) :
    ∃ ledger, KeptBy ledger (after reader steps) := by
  induction steps using List.reverseRecOn with
  | nil => exact ⟨[], start_keptBy⟩
  | append_singleton steps step kept =>
      obtain ⟨ledger, kept⟩ := kept
      obtain ⟨added, kept⟩ := kept.perform reader step
      refine ⟨ledger ++ added, ?_⟩
      rw [after, List.foldl_append]
      exact kept

/-- The expression that a step builds stands in the register behind all earlier ones. -/
theorem find_perform {reader : TextReader α} {workspace following : Workspace α}
    {step : Construction α} {shared : Shared α}
    (performed : (workspace.perform reader step).value = (.ok shared, following)) :
    following.find workspace.registers.size = .ok shared := by
  simp only [perform, Logged.value_map] at performed
  split at performed
  · cases performed
    exact find_eq_ok.mpr Array.getElem?_push_size
  · nomatch performed

/-- The result of a build stands in a register of the workspace behind its steps. -/
theorem exists_find_of_build {reader : TextReader α} {steps : List (Construction α)}
    {shared : Shared α} (built : (build reader steps).value = .ok shared) :
    ∃ register, (after reader steps).find register = .ok shared := by
  suffices general : ∀ (workspace : Workspace α) (latest : Except ConstructionError (Shared α)),
      (∀ shared, latest = .ok shared → ∃ register, workspace.find register = .ok shared) →
        (build.go reader workspace latest steps).value = .ok shared →
          ∃ register, (steps.foldl (fun workspace step =>
            (workspace.perform reader step).value.2) workspace).find register = .ok shared from
    general start (.error .emptyRegister) (fun _ latest => nomatch latest) built
  clear built
  induction steps with
  | nil => exact fun workspace latest stored built => stored shared built
  | cons step steps found =>
      intro workspace latest stored built
      simp only [build.go, Logged.value_andThen] at built
      rcases performed : (workspace.perform reader step).value with ⟨result | result, following⟩
      · rw [performed] at built
        nomatch built
      · rw [performed] at built
        rw [List.foldl_cons, performed]
        refine found following _ (fun shared same => ?_) built
        cases same
        exact ⟨_, find_perform performed⟩

end Workspace

end Residual
