import Mathlib.Data.List.Basic
import Residual.Proofs.Lists.Repetition
import Residual.Proofs.Sharing.Instances
import Residual.Sharing.Graph

/-!
# The walk behind a graph

A walk without memory would meet a shared node once for every way that leads to it, and
take each of the steps below it just as often. The walk of a graph lists what that walk
does, leaving out all repetitions: `Walk.Stands` says so at every moment. What makes it
true is that a node met a second time is finished, since the nodes that are not are those
on the way from the root, and none of these lies below itself.
-/

namespace Residual

universe u

namespace Node

variable {α : Type u}

/-- The serial numbers of nodes, each where it comes first. -/
def instances (nodes : List (Node α)) : List Nat := (nodes.map serial).eraseDups

theorem mem_instances {nodes : List (Node α)} {number : Nat} :
    number ∈ instances nodes ↔ ∃ node ∈ nodes, node.serial = number := by
  rw [instances, List.mem_eraseDups, List.mem_map]

theorem serial_mem_instances {nodes : List (Node α)} {node : Node α} (member : node ∈ nodes) :
    node.serial ∈ instances nodes :=
  mem_instances.mpr ⟨node, member, rfl⟩

theorem instances_append_of_subset {earlier later : List (Node α)}
    (repeated : ∀ node ∈ later, node ∈ earlier) :
    instances (earlier ++ later) = instances earlier := by
  rw [instances, List.map_append, eraseDups_append_of_subset]
  · rfl
  · intro number member
    obtain ⟨node, later, rfl⟩ := List.mem_map.mp member
    exact List.mem_map_of_mem (repeated node later)

theorem instances_concat {nodes : List (Node α)} {node : Node α}
    (new : node.serial ∉ instances nodes) :
    instances (nodes ++ [node]) = instances nodes ++ [node.serial] := by
  rw [instances, List.map_append, List.map_singleton, eraseDups_concat_of_notMem]
  · rfl
  · rwa [instances, List.mem_eraseDups] at new

/-- The place of a node among the instances in a list. -/
def placeIn (nodes : List (Node α)) (number : Nat) : Nat := (instances nodes).idxOf number

/-- Places do not change when further nodes are met. -/
theorem placeIn_append {earlier : List (Node α)} {number : Nat}
    (member : number ∈ instances earlier) (later : List (Node α)) :
    placeIn (earlier ++ later) number = placeIn earlier number := by
  rw [placeIn, instances, List.map_append, List.eraseDups_append]
  exact List.idxOf_append_of_mem member

theorem placeIn_concat {nodes : List (Node α)} {node : Node α}
    (new : node.serial ∉ instances nodes) :
    placeIn (nodes ++ [node]) node.serial = (instances nodes).length := by
  rw [placeIn, instances_concat new, List.idxOf_append_of_notMem new, List.idxOf_cons_self,
    Nat.add_zero]

/-- A step from a node to one of its operands, between serial numbers. -/
def Steps (node : Node α) (link : Edge) : Prop :=
  ∃ operand, node.operands[link.position]? = some operand ∧
    link.source = node.serial ∧ link.target = operand.serial

theorem Steps.source_eq {node : Node α} {link : Edge} (steps : node.Steps link) :
    link.source = node.serial := by
  obtain ⟨_, _, source, _⟩ := steps
  exact source

/-- A position determines the step from a node. -/
theorem Steps.eq_of_position_eq {node : Node α} {first second : Edge} (steps : node.Steps first)
    (others : node.Steps second) (same : first.position = second.position) : first = second := by
  rcases first with ⟨source, target, position⟩
  rcases second with ⟨_, _, _⟩
  obtain rfl : position = _ := same
  obtain ⟨operand, taken, rfl, rfl⟩ := steps
  obtain ⟨other, otherTaken, rfl, rfl⟩ := others
  rw [taken] at otherTaken
  rw [Option.some.inj otherTaken]

/-- The steps at a node and at all nodes below it. A step comes when those below the
operand that it leads to have been listed. -/
def links : Node α → List Edge
  | .empty _ | .epsilon _ | .token _ _ => []
  | .union serial left right | .concat serial left right =>
      left.links ++ ⟨serial, left.serial, 0⟩ :: (right.links ++ [⟨serial, right.serial, 1⟩])
  | .star serial inner => inner.links ++ [⟨serial, inner.serial, 0⟩]

theorem links_eq (node : Node α) :
    node.links = node.operands.zipIdx.flatMap fun (operand, position) =>
      operand.links ++ [⟨node.serial, operand.serial, position⟩] := by
  cases node <;> simp [links, operands, serial]

/-- The listed steps are those at some node. -/
theorem mem_links {node : Node α} {link : Edge} :
    link ∈ node.links ↔ ∃ part ∈ node.occurrences, part.Steps link := by
  induction node using operands_induction with
  | step node below =>
      rw [links_eq, List.mem_flatMap]
      constructor
      · rintro ⟨⟨operand, position⟩, member, listed⟩
        rw [List.mk_mem_zipIdx_iff_getElem?] at member
        rcases List.mem_append.mp listed with lower | here
        · obtain ⟨part, within, steps⟩ := (below operand (List.mem_of_getElem? member)).mp lower
          exact ⟨part, mem_occurrences_of_operand (List.mem_of_getElem? member) within, steps⟩
        · rw [List.mem_singleton.mp here]
          exact ⟨node, self_mem_occurrences node, operand, member, rfl, rfl⟩
      · rintro ⟨part, within, steps⟩
        rcases mem_occurrences.mp within with rfl | ⟨operand, member, within⟩
        · obtain ⟨operand, taken, source, target⟩ := steps
          refine ⟨(operand, link.position), List.mk_mem_zipIdx_iff_getElem?.mpr taken,
            List.mem_append_right _ (List.mem_singleton.mpr ?_)⟩
          rw [← source, ← target]
        · obtain ⟨position, taken⟩ := List.mem_iff_getElem?.mp member
          exact ⟨(operand, position), List.mk_mem_zipIdx_iff_getElem?.mpr taken,
            List.mem_append_left _ ((below operand member).mpr ⟨part, within, steps⟩)⟩

theorem mem_links_of_mem_occurrences {part node : Node α} (below : part ∈ node.occurrences)
    {link : Edge} (member : link ∈ part.links) : link ∈ node.links := by
  obtain ⟨lower, within, steps⟩ := mem_links.mp member
  exact mem_links.mpr ⟨lower, mem_occurrences_trans within below, steps⟩

/-- All that lies below a node has been met, and all steps there have been taken. -/
structure Finished (met : List (Node α)) (passed : List Edge) (node : Node α) : Prop where
  met : ∀ part ∈ node.occurrences, part ∈ met
  passed : ∀ link ∈ node.links, link ∈ passed

theorem Finished.append {met : List (Node α)} {passed : List Edge} {node : Node α}
    (finished : Finished met passed node) (later : List (Node α)) (links : List Edge) :
    Finished (met ++ later) (passed ++ links) node where
  met part below := List.mem_append_left later (finished.met part below)
  passed link member := List.mem_append_left links (finished.passed link member)

theorem Finished.part {met : List (Node α)} {passed : List Edge} {node part : Node α}
    (finished : Finished met passed node) (below : part ∈ node.occurrences) :
    Finished met passed part where
  met lower within := finished.met lower (mem_occurrences_trans within below)
  passed link member := finished.passed link (mem_links_of_mem_occurrences below member)

namespace Walk

/-- The step as an edge between the places of its ends. -/
def edgeIn (nodes : List (Node α)) (link : Edge) : Edge :=
  ⟨placeIn nodes link.source, placeIn nodes link.target, link.position⟩

/-- Nodes have been met and steps taken, each in order and as often as a walk without
memory would; the graph lists them without repetitions. -/
structure Stands (ledger met : List (Node α)) (passed : List Edge) (walk : Walk α) : Prop where
  recorded : ∀ node ∈ met, Recorded ledger node
  vertices : ∀ number, walk.vertices[number]? =
    if number ∈ instances met then some (placeIn met number) else none
  size : walk.labels.size = (instances met).length
  labels : ∀ node ∈ met, walk.labels[placeIn met node.serial]? = some node.label
  edges : walk.edges.toList = passed.eraseDups.map (edgeIn met)
  sources : ∀ link ∈ passed, link.source ∈ instances met
  targets : ∀ link ∈ passed, ∃ node ∈ met, node.serial = link.target ∧ Finished met passed node
  ordered : passed.eraseDups.Pairwise fun earlier later =>
    ∀ node, ledger[earlier.target]? = some node →
      ∀ part ∈ node.occurrences, part.serial ≠ later.source

namespace Stands

variable {ledger met : List (Node α)} {passed : List Edge} {walk : Walk α} {node : Node α}

theorem target_mem (stands : Stands ledger met passed walk) {link : Edge}
    (member : link ∈ passed) : link.target ∈ instances met := by
  obtain ⟨node, met, same, -⟩ := stands.targets link member
  exact mem_instances.mpr ⟨node, met, same⟩

theorem start (ledger : List (Node α)) : Stands ledger [] [] .start where
  recorded := nofun
  vertices number := by simp [Walk.start, instances]
  size := rfl
  labels := nofun
  edges := rfl
  sources := nofun
  targets := nofun
  ordered := List.Pairwise.nil

/-- A walk that only met again what is finished stands where it stood. -/
theorem again (stands : Stands ledger met passed walk) (finished : Finished met passed node) :
    Stands ledger (met ++ node.occurrences) (passed ++ node.links) walk := by
  have old {other : Node α} (member : other ∈ met ++ node.occurrences) : other ∈ met :=
    (List.mem_append.mp member).elim id (finished.met other)
  have taken {link : Edge} (member : link ∈ passed ++ node.links) : link ∈ passed :=
    (List.mem_append.mp member).elim id (finished.passed link)
  have same : instances (met ++ node.occurrences) = instances met :=
    instances_append_of_subset finished.met
  have places : placeIn (met ++ node.occurrences) = placeIn met := by
    funext number
    rw [placeIn, placeIn, same]
  have ends : edgeIn (met ++ node.occurrences) = edgeIn met := by
    funext link
    rw [edgeIn, edgeIn, places]
  have steps : (passed ++ node.links).eraseDups = passed.eraseDups :=
    eraseDups_append_of_subset finished.passed
  refine ⟨fun other member => stands.recorded other (old member), ?_, ?_, ?_, ?_, ?_, ?_, ?_⟩
  · rw [same, places]
    exact stands.vertices
  · rw [same]
    exact stands.size
  · rw [places]
    exact fun other member => stands.labels other (old member)
  · rw [steps, ends]
    exact stands.edges
  · rw [same]
    exact fun link member => stands.sources link (taken member)
  · intro link member
    obtain ⟨target, met, number, finished⟩ := stands.targets link (taken member)
    exact ⟨target, List.mem_append_left _ met, number, finished.append _ _⟩
  · rw [steps]
    exact stands.ordered

/-- A new node takes the next vertex. -/
theorem meet (stands : Stands ledger met passed walk) (recorded : Recorded ledger node)
    (new : node.serial ∉ instances met) :
    Stands ledger (met ++ [node]) passed (walk.meet node) where
  recorded other member := by
    rcases List.mem_append.mp member with member | member
    · exact stands.recorded other member
    · exact List.mem_singleton.mp member ▸ recorded
  vertices number := by
    simp only [Walk.meet, Std.HashMap.getElem?_insert, beq_iff_eq, instances_concat new,
      List.mem_append, List.mem_singleton, stands.vertices]
    by_cases same : node.serial = number
    · subst same
      simp [placeIn_concat new, stands.size]
    · rw [if_neg same]
      by_cases earlier : number ∈ instances met
      · rw [if_pos earlier, if_pos (.inl earlier), placeIn_append earlier]
      · rw [if_neg earlier, if_neg (by simp [earlier, Ne.symm same])]
  size := by
    simp [Walk.meet, instances_concat new, stands.size]
  labels other member := by
    rcases List.mem_append.mp member with member | member
    · rw [placeIn_append (serial_mem_instances member)]
      have found := stands.labels other member
      have bound := (Array.getElem?_eq_some_iff.mp found).1
      simp only [Walk.meet]
      rw [Array.getElem?_push, if_neg (Nat.ne_of_lt bound)]
      exact found
    · rw [List.mem_singleton.mp member, placeIn_concat new, ← stands.size]
      exact Array.getElem?_push_size
  edges := by
    rw [Walk.meet]
    refine stands.edges.trans (List.map_congr_left fun link member => ?_)
    rw [List.mem_eraseDups] at member
    rw [edgeIn, edgeIn, placeIn_append (stands.sources link member),
      placeIn_append (stands.target_mem member)]
  sources link member := by
    rw [instances_concat new]
    exact List.mem_append_left _ (stands.sources link member)
  targets link member := by
    obtain ⟨target, met, number, finished⟩ := stands.targets link member
    exact ⟨target, List.mem_append_left _ met, number, List.append_nil passed ▸ finished.append _ []⟩
  ordered := stands.ordered

/-- A step to an operand that is finished takes the next edge. -/
theorem connect (stands : Stands ledger met passed walk) {operand : Node α} {position : Nat}
    (entered : node ∈ met) (taken : node.operands[position]? = some operand)
    (finished : Finished met passed operand)
    (new : ⟨node.serial, operand.serial, position⟩ ∉ passed) :
    Stands ledger met (passed ++ [⟨node.serial, operand.serial, position⟩])
      (walk.connect (placeIn met node.serial) (placeIn met operand.serial) position) where
  recorded := stands.recorded
  vertices := stands.vertices
  size := stands.size
  labels := stands.labels
  edges := by
    rw [eraseDups_concat_of_notMem new, List.map_append, ← stands.edges]
    exact Array.toList_push
  sources link member := by
    rcases List.mem_append.mp member with member | member
    · exact stands.sources link member
    · rw [List.mem_singleton.mp member]
      exact serial_mem_instances entered
  targets link member := by
    rcases List.mem_append.mp member with member | member
    · obtain ⟨target, among, number, finished⟩ := stands.targets link member
      exact ⟨target, among, number, List.append_nil met ▸ finished.append [] _⟩
    · rw [List.mem_singleton.mp member]
      exact ⟨operand, finished.met operand (self_mem_occurrences operand), rfl,
        List.append_nil met ▸ finished.append [] _⟩
  ordered := by
    rw [eraseDups_concat_of_notMem new, List.pairwise_append]
    refine ⟨stands.ordered, List.pairwise_singleton _ _, ?_⟩
    intro earlier member later last target found part below same
    rw [List.mem_singleton.mp last] at same
    obtain ⟨other, among, number, finished⟩ := stands.targets earlier (List.mem_eraseDups.mp member)
    have own := (stands.recorded other among).self
    rw [number, found] at own
    cases own
    -- Otherwise the node would lie below a finished one, and its step would have been taken.
    have here := ((stands.recorded target among).part below).eq_of_serial_eq
      (stands.recorded node entered) same
    subst here
    exact new (finished.passed _ (mem_links.mpr ⟨part, below, operand, taken, rfl, rfl⟩))

end Stands

/-- The walk is in the middle of a node: it has given it a vertex and is done with the
operands before a position. Whatever else is not finished has more below it. -/
structure Inside (ledger met : List (Node α)) (passed : List Edge) (walk : Walk α)
    (node : Node α) (vertex position : Nat) : Prop extends Stands ledger met passed walk where
  entered : node ∈ met
  place : placeIn met node.serial = vertex
  finished : ∀ other ∈ met, Finished met passed other ∨
    node.occurrences.length ≤ other.occurrences.length
  ahead : ∀ link ∈ passed, link.source = node.serial → link.position < position

/-- Visits an operand and lists the edge that leads to it. -/
def descend (vertex : Nat) (walk : Walk α) (part : Node α × Nat) : Walk α :=
  (part.1.visit walk).2.connect vertex (part.1.visit walk).1 part.2

end Walk

theorem visit_of_met {node : Node α} {walk : Walk α} {vertex : Nat}
    (met : walk.vertices[node.serial]? = some vertex) : node.visit walk = (vertex, walk) := by
  unfold visit
  rw [met]

/-- A node that is new is entered, and then its operands are visited in turn. -/
theorem visit_of_new {node : Node α} {walk : Walk α}
    (new : walk.vertices[node.serial]? = none) :
    node.visit walk = (walk.labels.size,
      node.operands.zipIdx.foldl (Walk.descend walk.labels.size) (walk.meet node)) := by
  unfold visit
  rw [new]
  cases node <;> simp only [operands, List.zipIdx_nil, List.zipIdx_cons, List.foldl_nil,
    List.foldl_cons, Walk.descend, Nat.zero_add]

/-- Wherever the walk stands, unless it is below the node already, visiting it does what a
walk without memory would do and returns the place of the node. -/
def Visitable (ledger : List (Node α)) (node : Node α) : Prop :=
  ∀ {met : List (Node α)} {passed : List Edge} {walk : Walk α},
    Walk.Stands ledger met passed walk →
    (∀ other ∈ met, Finished met passed other ∨
      node.occurrences.length < other.occurrences.length) →
    (node.visit walk).1 = placeIn (met ++ node.occurrences) node.serial ∧
      Walk.Stands ledger (met ++ node.occurrences) (passed ++ node.links) (node.visit walk).2

namespace Walk

variable {ledger met : List (Node α)} {passed : List Edge} {walk : Walk α} {node : Node α}
  {vertex position : Nat}

/-- Entering a node that was not met before. -/
theorem Stands.enter (stands : Stands ledger met passed walk) (recorded : Recorded ledger node)
    (above : ∀ other ∈ met, Finished met passed other ∨
      node.occurrences.length < other.occurrences.length)
    (new : node.serial ∉ instances met) :
    Inside ledger (met ++ [node]) passed (walk.meet node) node walk.labels.size 0 where
  toStands := stands.meet recorded new
  entered := List.mem_append_right met (List.mem_singleton_self node)
  place := (placeIn_concat new).trans stands.size.symm
  finished other among := by
    rcases List.mem_append.mp among with earlier | last
    · exact (above other earlier).imp
        (fun done => List.append_nil passed ▸ done.append [node] []) Nat.le_of_lt
    · rw [List.mem_singleton.mp last]
      exact .inr (Nat.le_refl _)
  ahead link among source := absurd (source ▸ stands.sources link among) new

/-- No step below an operand leaves the node itself. -/
theorem Inside.source_ne (inside : Inside ledger met passed walk node vertex position)
    {operand : Node α} (member : operand ∈ node.operands) {link : Edge}
    (below : link ∈ operand.links) : link.source ≠ node.serial := by
  intro same
  have recorded := inside.recorded node inside.entered
  obtain ⟨part, within, target, taken, source, -⟩ := mem_links.mp below
  have here := ((recorded.operand member).part within).eq_of_serial_eq recorded
    (source.symm.trans same)
  subst here
  rcases eq_or_length_occurrences_lt within with rfl | less
  · exact Nat.lt_irrefl _ (length_occurrences_lt member)
  · exact Nat.lt_asymm less (length_occurrences_lt member)

/-- Going down to the next operand and back. -/
theorem Inside.descend (inside : Inside ledger met passed walk node vertex position)
    {operand : Node α} (taken : node.operands[position]? = some operand)
    (visitable : Visitable ledger operand) :
    Inside ledger (met ++ operand.occurrences)
      (passed ++ (operand.links ++ [⟨node.serial, operand.serial, position⟩]))
      (walk.descend vertex (operand, position)) node vertex (position + 1) := by
  have member := List.mem_of_getElem? taken
  obtain ⟨place, stands⟩ := visitable inside.toStands fun other among =>
    (inside.finished other among).imp id (Nat.lt_of_lt_of_le (length_occurrences_lt member))
  have finished : Finished (met ++ operand.occurrences) (passed ++ operand.links) operand :=
    ⟨fun _ => List.mem_append_right met, fun _ => List.mem_append_right passed⟩
  have entered : node ∈ met ++ operand.occurrences := List.mem_append_left _ inside.entered
  have vertexPlace : placeIn (met ++ operand.occurrences) node.serial = vertex :=
    (placeIn_append (serial_mem_instances inside.entered) _).trans inside.place
  have ahead : ∀ link ∈ passed ++ operand.links, link.source = node.serial →
      link.position < position := by
    intro link among source
    rcases List.mem_append.mp among with earlier | below
    · exact inside.ahead link earlier source
    · exact absurd source (inside.source_ne member below)
  have connected := stands.connect entered taken finished fun old =>
    Nat.lt_irrefl position (ahead _ old rfl)
  rw [vertexPlace, ← place] at connected
  rw [← List.append_assoc]
  refine ⟨connected, entered, vertexPlace, ?_, ?_⟩
  · intro other among
    rcases List.mem_append.mp among with earlier | below
    · refine (inside.finished other earlier).imp (fun done => ?_) id
      rw [List.append_assoc]
      exact done.append _ _
    · exact .inl (List.append_nil (met ++ operand.occurrences) ▸
        (finished.part below).append [] _)
  · intro link among source
    rcases List.mem_append.mp among with earlier | last
    · exact Nat.lt_succ_of_lt (ahead link earlier source)
    · rw [List.mem_singleton.mp last]
      exact Nat.lt_succ_self position

/-- Going down to all operands that are left, from left to right. -/
theorem Inside.descend_all (inside : Inside ledger met passed walk node vertex position)
    (visitable : ∀ operand ∈ node.operands, Visitable ledger operand) {rest : List (Node α)}
    (left : node.operands.drop position = rest) :
    Inside ledger (met ++ rest.flatMap occurrences)
      (passed ++ (rest.zipIdx position).flatMap fun (operand, position) =>
        operand.links ++ [⟨node.serial, operand.serial, position⟩])
      ((rest.zipIdx position).foldl (Walk.descend vertex) walk)
      node vertex (position + rest.length) := by
  induction rest generalizing met passed walk position with
  | nil => simpa using inside
  | cons operand rest further =>
      have taken : node.operands[position]? = some operand := by
        rw [← List.head?_drop, left, List.head?_cons]
      have after := further (inside.descend taken (visitable operand (List.mem_of_getElem? taken)))
        (by rw [← List.tail_drop, left, List.tail_cons])
      simpa [List.append_assoc, Nat.add_assoc, Nat.add_comm 1] using after

end Walk

/-- Every node of a ledger can be visited. -/
theorem Recorded.visitable {ledger : List (Node α)} {node : Node α}
    (recorded : Recorded ledger node) : Visitable ledger node := by
  induction node using operands_induction with
  | step node operandsVisitable =>
      intro met passed walk stands above
      by_cases seen : node.serial ∈ instances met
      · obtain ⟨other, among, same⟩ := mem_instances.mp seen
        have here := (stands.recorded other among).eq_of_serial_eq recorded same
        subst here
        have finished := (above other among).resolve_right (Nat.lt_irrefl _)
        have known := stands.vertices other.serial
        rw [if_pos seen] at known
        rw [visit_of_met known, placeIn_append seen]
        exact ⟨rfl, stands.again finished⟩
      · have unknown := stands.vertices node.serial
        rw [if_neg seen] at unknown
        have inside := (stands.enter recorded above seen).descend_all
          (fun operand member => operandsVisitable operand member (recorded.operand member))
          List.drop_zero
        rw [List.append_assoc, List.singleton_append, ← occurrences_eq, ← links_eq] at inside
        rw [visit_of_new unknown]
        exact ⟨inside.place.symm, inside.toStands⟩

/-- The node that is drawn has the first vertex. -/
theorem graph_root (node : Node α) : node.graph.root = 0 := by
  have new : (Walk.start : Walk α).vertices[node.serial]? = none := by simp [Walk.start]
  rw [graph, visit_of_new new]
  rfl

/-- The graph of a node lists what a walk without memory meets and does, each instance
and each step where it comes first. -/
theorem Recorded.graph_stands {ledger : List (Node α)} {node : Node α}
    (recorded : Recorded ledger node) :
    Walk.Stands ledger node.occurrences node.links (node.visit .start).2 := by
  have visited := recorded.visitable (Walk.Stands.start ledger) nofun
  simpa using visited.2

end Node

end Residual
