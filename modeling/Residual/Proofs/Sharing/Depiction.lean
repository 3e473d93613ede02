import Residual.Proofs.Sharing.Walk

/-!
# What a graph says about its expression

The graph of a node has one vertex for each instance and one edge for each operand of an
instance. That is enough to find the expression again by unfolding the graph from its
first vertex, and to see which operands are the same instance: ways that lead to one
vertex lead to one node.
-/

namespace Residual

universe u

variable {α : Type u}

namespace Node

/-- The number of a part in the graph of a node: its place among all instances in the
order in which they are first met. -/
def numberIn (node part : Node α) : Nat := placeIn node.occurrences part.serial

/-- The root has the first number. -/
theorem numberIn_self (node : Node α) : node.numberIn node = 0 := by
  rw [numberIn, placeIn, instances, occurrences_eq, List.map_cons, List.eraseDups_cons,
    List.idxOf_cons_self]

/-- The node at the end of a path of operand positions. -/
def at? : Node α → List Nat → Option (Node α)
  | node, [] => some node
  | node, position :: path => node.operands[position]?.bind fun operand => operand.at? path

theorem at?_mem_occurrences {node part : Node α} {path : List Nat}
    (found : node.at? path = some part) : part ∈ node.occurrences := by
  induction path generalizing node with
  | nil =>
      rw [Option.some.inj found]
      exact self_mem_occurrences part
  | cons position path below =>
      obtain ⟨operand, taken, found⟩ := Option.bind_eq_some_iff.mp found
      exact mem_occurrences_of_operand (List.mem_of_getElem? taken) (below found)

/-- Two nodes share alike if any two paths lead to one instance in both or in neither. -/
def SharesAlike (first second : Node α) : Prop :=
  ∀ path path', (first.at? path).map serial = (first.at? path').map serial ↔
    (second.at? path).map serial = (second.at? path').map serial

namespace Recorded

variable {ledger : List (Node α)} {node : Node α}

/-- In a graph, different instances have different numbers. -/
theorem numberIn_inj (recorded : Recorded ledger node) {part other : Node α}
    (below : part ∈ node.occurrences) (otherBelow : other ∈ node.occurrences) :
    node.numberIn part = node.numberIn other ↔ part = other := by
  rw [numberIn, numberIn, placeIn, placeIn, List.idxOf_inj (serial_mem_instances below)]
  exact ⟨(recorded.part below).eq_of_serial_eq (recorded.part otherBelow), congrArg serial⟩

/-- Paths lead to one instance where they lead to one number. -/
theorem map_serial_at? (recorded : Recorded ledger node) (path path' : List Nat) :
    (node.at? path).map serial = (node.at? path').map serial ↔
      (node.at? path).map node.numberIn = (node.at? path').map node.numberIn := by
  cases found : node.at? path with
  | none => cases node.at? path' <;> simp
  | some part =>
      cases found' : node.at? path' with
      | none => simp
      | some other =>
          have below := at?_mem_occurrences found
          have otherBelow := at?_mem_occurrences found'
          simp only [Option.map_some, Option.some.injEq,
            recorded.numberIn_inj below otherBelow]
          exact ⟨(recorded.part below).eq_of_serial_eq (recorded.part otherBelow),
            congrArg serial⟩

end Recorded

end Node

namespace Graph

open Node

/-- The graph shows the instances of a node and the steps between them. -/
structure Depicts (graph : Graph α) (node : Node α) : Prop where
  /-- The node itself has the first vertex. -/
  root : graph.root = 0
  /-- There are as many vertices as instances. -/
  size : graph.labels.size = (instances node.occurrences).length
  /-- Every instance has a vertex, and they are numbered as they are first met. -/
  label : ∀ part ∈ node.occurrences, graph.labels[node.numberIn part]? = some part.label
  /-- The edges lead from the instances to their operands. -/
  edge : ∀ edge, edge ∈ graph.edges ↔
    ∃ part ∈ node.occurrences, ∃ operand, part.operands[edge.position]? = some operand ∧
      edge.source = node.numberIn part ∧ edge.target = node.numberIn operand
  /-- One edge leaves a vertex for each position. -/
  once : graph.edges.toList.Pairwise fun earlier later =>
    (earlier.source, earlier.position) ≠ (later.source, later.position)
  /-- Whatever leaves a vertex below an operand comes before the edges to that operand. -/
  ordered : graph.edges.toList.Pairwise fun earlier later =>
    ∀ operand ∈ node.occurrences, earlier.target = node.numberIn operand →
      ∀ part ∈ operand.occurrences, later.source ≠ node.numberIn part

/-- A vertex unfolds into an expression by following the edges to the operands. -/
inductive Unfolds (graph : Graph α) : Nat → Regex α → Prop
  | empty {vertex : Nat} : graph.labels[vertex]? = some .empty → Unfolds graph vertex .empty
  | epsilon {vertex : Nat} :
      graph.labels[vertex]? = some .epsilon → Unfolds graph vertex .epsilon
  | token {vertex : Nat} {value : α} :
      graph.labels[vertex]? = some (.token value) → Unfolds graph vertex (.token value)
  | union {vertex first second : Nat} {left right : Regex α} :
      graph.labels[vertex]? = some .union →
      ⟨vertex, first, 0⟩ ∈ graph.edges → ⟨vertex, second, 1⟩ ∈ graph.edges →
      Unfolds graph first left → Unfolds graph second right →
      Unfolds graph vertex (.union left right)
  | concat {vertex first second : Nat} {left right : Regex α} :
      graph.labels[vertex]? = some .concat →
      ⟨vertex, first, 0⟩ ∈ graph.edges → ⟨vertex, second, 1⟩ ∈ graph.edges →
      Unfolds graph first left → Unfolds graph second right →
      Unfolds graph vertex (.concat left right)
  | star {vertex only : Nat} {inner : Regex α} :
      graph.labels[vertex]? = some .star → ⟨vertex, only, 0⟩ ∈ graph.edges →
      Unfolds graph only inner → Unfolds graph vertex (.star inner)

/-- A path of positions leads along edges from one vertex to another. -/
def Leads (graph : Graph α) : Nat → List Nat → Nat → Prop
  | vertex, [], last => vertex = last
  | vertex, position :: path, last =>
      ∃ target, ⟨vertex, target, position⟩ ∈ graph.edges ∧ graph.Leads target path last

end Graph

namespace Node

namespace Recorded

variable {ledger : List (Node α)} {node : Node α}

theorem mem_graph_edges (recorded : Recorded ledger node) {edge : Edge} :
    edge ∈ node.graph.edges ↔
      ∃ part ∈ node.occurrences, ∃ operand, part.operands[edge.position]? = some operand ∧
        edge.source = node.numberIn part ∧ edge.target = node.numberIn operand := by
  rw [← Array.mem_toList_iff, graph_edges, recorded.graph_stands.edges, List.mem_map]
  constructor
  · rintro ⟨link, member, rfl⟩
    obtain ⟨part, below, operand, taken, source, target⟩ :=
      mem_links.mp (List.mem_eraseDups.mp member)
    exact ⟨part, below, operand, taken, congrArg (placeIn node.occurrences) source,
      congrArg (placeIn node.occurrences) target⟩
  · rintro ⟨part, below, operand, taken, source, target⟩
    refine ⟨⟨part.serial, operand.serial, edge.position⟩, List.mem_eraseDups.mpr
      (mem_links.mpr ⟨part, below, operand, taken, rfl, rfl⟩), ?_⟩
    rw [Walk.edgeIn]
    exact congrArg₂ (Edge.mk · · edge.position) source.symm target.symm

theorem graph_edges_once (recorded : Recorded ledger node) :
    node.graph.edges.toList.Pairwise fun earlier later =>
      (earlier.source, earlier.position) ≠ (later.source, later.position) := by
  have stands := recorded.graph_stands
  rw [graph_edges, stands.edges, List.pairwise_map]
  refine (nodup_eraseDups node.links).imp_of_mem ?_
  intro earlier later member laterMember different same
  rw [List.mem_eraseDups] at member laterMember
  obtain ⟨places, positions⟩ := Prod.mk.inj same
  have sources := (List.idxOf_inj (stands.sources earlier member)).mp places
  obtain ⟨part, below, steps⟩ := mem_links.mp member
  obtain ⟨other, otherBelow, otherSteps⟩ := mem_links.mp laterMember
  have here : part = other := by
    refine (recorded.part below).eq_of_serial_eq (recorded.part otherBelow) ?_
    rw [← steps.source_eq, ← otherSteps.source_eq, sources]
  subst here
  exact different (steps.eq_of_position_eq otherSteps positions)

theorem graph_edges_ordered (recorded : Recorded ledger node) :
    node.graph.edges.toList.Pairwise fun earlier later =>
      ∀ operand ∈ node.occurrences, earlier.target = node.numberIn operand →
        ∀ part ∈ operand.occurrences, later.source ≠ node.numberIn part := by
  have stands := recorded.graph_stands
  rw [graph_edges, stands.edges, List.pairwise_map]
  refine stands.ordered.imp_of_mem ?_
  intro earlier later member laterMember apart operand below target part within source
  rw [List.mem_eraseDups] at member laterMember
  have targets := (List.idxOf_inj (stands.target_mem member)).mp target
  have sources := (List.idxOf_inj (stands.sources later laterMember)).mp source
  exact apart operand (targets ▸ (recorded.part below).self) part within sources.symm

/-- The graph of a recorded node shows what it should. -/
theorem graph_depicts (recorded : Recorded ledger node) : node.graph.Depicts node where
  root := node.graph_root
  size := recorded.graph_stands.size
  label := recorded.graph_stands.labels
  edge _ := recorded.mem_graph_edges
  once := recorded.graph_edges_once
  ordered := recorded.graph_edges_ordered

end Recorded

end Node

namespace Graph

namespace Depicts

open Node

variable {graph : Graph α} {ledger : List (Node α)} {node : Node α}

/-- The edge at a position of a part leads to the operand there. -/
theorem edge_from (depicts : graph.Depicts node) (recorded : Recorded ledger node)
    {part : Node α} (below : part ∈ node.occurrences) {target position : Nat} :
    ⟨node.numberIn part, target, position⟩ ∈ graph.edges ↔
      ∃ operand, part.operands[position]? = some operand ∧ target = node.numberIn operand := by
  rw [depicts.edge]
  constructor
  · rintro ⟨other, otherBelow, operand, taken, source, target⟩
    have same := (recorded.numberIn_inj below otherBelow).mp source
    subst same
    exact ⟨operand, taken, target⟩
  · rintro ⟨operand, taken, target⟩
    exact ⟨part, below, operand, taken, rfl, target⟩

theorem edge_to (depicts : graph.Depicts node) (recorded : Recorded ledger node)
    {part operand : Node α} (below : part ∈ node.occurrences) {target position : Nat}
    (taken : part.operands[position]? = some operand) :
    ⟨node.numberIn part, target, position⟩ ∈ graph.edges ↔ target = node.numberIn operand := by
  rw [depicts.edge_from recorded below, taken]
  simp

/-- The vertex of a part unfolds into its expression and into nothing else. -/
theorem unfolds_iff (depicts : graph.Depicts node) (recorded : Recorded ledger node)
    {part : Node α} (below : part ∈ node.occurrences) {regex : Regex α} :
    graph.Unfolds (node.numberIn part) regex ↔ regex = part.erase := by
  induction part generalizing regex with
  | empty serial =>
      have label := depicts.label _ below
      refine ⟨fun unfolds => ?_, fun same => same ▸ .empty label⟩
      cases unfolds with
      | empty => rfl
      | epsilon found | token found | union found | concat found | star found =>
          cases found.symm.trans label
  | epsilon serial =>
      have label := depicts.label _ below
      refine ⟨fun unfolds => ?_, fun same => same ▸ .epsilon label⟩
      cases unfolds with
      | epsilon => rfl
      | empty found | token found | union found | concat found | star found =>
          cases found.symm.trans label
  | token serial value =>
      have label := depicts.label _ below
      refine ⟨fun unfolds => ?_, fun same => same ▸ .token label⟩
      cases unfolds with
      | token found =>
          cases found.symm.trans label
          rfl
      | empty found | epsilon found | union found | concat found | star found =>
          cases found.symm.trans label
  | union serial left right leftUnfolds rightUnfolds =>
      have label := depicts.label _ below
      have leftBelow : left ∈ node.occurrences :=
        operand_mem_occurrences below (by simp [operands])
      have rightBelow : right ∈ node.occurrences :=
        operand_mem_occurrences below (by simp [operands])
      constructor
      · intro unfolds
        cases unfolds with
        | union _ first second leftOf rightOf =>
            rw [(depicts.edge_to recorded below rfl).mp first] at leftOf
            rw [(depicts.edge_to recorded below rfl).mp second] at rightOf
            rw [(leftUnfolds leftBelow).mp leftOf, (rightUnfolds rightBelow).mp rightOf, erase]
        | empty found | epsilon found | token found | concat found | star found =>
            cases found.symm.trans label
      · rintro rfl
        exact .union label ((depicts.edge_to recorded below rfl).mpr rfl)
          ((depicts.edge_to recorded below rfl).mpr rfl)
          ((leftUnfolds leftBelow).mpr rfl) ((rightUnfolds rightBelow).mpr rfl)
  | concat serial left right leftUnfolds rightUnfolds =>
      have label := depicts.label _ below
      have leftBelow : left ∈ node.occurrences :=
        operand_mem_occurrences below (by simp [operands])
      have rightBelow : right ∈ node.occurrences :=
        operand_mem_occurrences below (by simp [operands])
      constructor
      · intro unfolds
        cases unfolds with
        | concat _ first second leftOf rightOf =>
            rw [(depicts.edge_to recorded below rfl).mp first] at leftOf
            rw [(depicts.edge_to recorded below rfl).mp second] at rightOf
            rw [(leftUnfolds leftBelow).mp leftOf, (rightUnfolds rightBelow).mp rightOf, erase]
        | empty found | epsilon found | token found | union found | star found =>
            cases found.symm.trans label
      · rintro rfl
        exact .concat label ((depicts.edge_to recorded below rfl).mpr rfl)
          ((depicts.edge_to recorded below rfl).mpr rfl)
          ((leftUnfolds leftBelow).mpr rfl) ((rightUnfolds rightBelow).mpr rfl)
  | star serial inner innerUnfolds =>
      have label := depicts.label _ below
      have innerBelow : inner ∈ node.occurrences :=
        operand_mem_occurrences below (by simp [operands])
      constructor
      · intro unfolds
        cases unfolds with
        | star _ only innerOf =>
            rw [(depicts.edge_to recorded below rfl).mp only] at innerOf
            rw [(innerUnfolds innerBelow).mp innerOf, erase]
        | empty found | epsilon found | token found | union found | concat found =>
            cases found.symm.trans label
      · rintro rfl
        exact .star label ((depicts.edge_to recorded below rfl).mpr rfl)
          ((innerUnfolds innerBelow).mpr rfl)

/-- Paths lead along edges to the vertex of the node at their end. -/
theorem leads_iff (depicts : graph.Depicts node) (recorded : Recorded ledger node)
    {part : Node α} (below : part ∈ node.occurrences) {path : List Nat} {last : Nat} :
    graph.Leads (node.numberIn part) path last ↔
      (part.at? path).map node.numberIn = some last := by
  induction path generalizing part with
  | nil => simp [Leads, at?]
  | cons position path leads =>
      simp only [Leads, depicts.edge_from recorded below, at?]
      constructor
      · rintro ⟨_, ⟨operand, taken, rfl⟩, further⟩
        rw [taken]
        exact (leads (operand_mem_occurrences below (List.mem_of_getElem? taken))).mp further
      · intro found
        cases taken : part.operands[position]? with
        | none =>
            rw [taken] at found
            nomatch found
        | some operand =>
            rw [taken] at found
            exact ⟨_, ⟨operand, rfl, rfl⟩,
              (leads (operand_mem_occurrences below (List.mem_of_getElem? taken))).mpr found⟩

/-- A graph gives the nodes at the ends of all paths. -/
theorem map_numberIn_at? {other : Node α} {otherLedger : List (Node α)}
    (depicts : graph.Depicts node) (recorded : Recorded ledger node)
    (otherDepicts : graph.Depicts other) (otherRecorded : Recorded otherLedger other)
    (path : List Nat) :
    (node.at? path).map node.numberIn = (other.at? path).map other.numberIn := by
  refine Option.ext fun last => ?_
  rw [← depicts.leads_iff recorded (self_mem_occurrences node),
    ← otherDepicts.leads_iff otherRecorded (self_mem_occurrences other), numberIn_self,
    numberIn_self]

/-- Expressions with one graph are equal and share alike. -/
theorem unique {other : Node α} {otherLedger : List (Node α)}
    (depicts : graph.Depicts node) (recorded : Recorded ledger node)
    (otherDepicts : graph.Depicts other) (otherRecorded : Recorded otherLedger other) :
    node.erase = other.erase ∧ node.SharesAlike other := by
  constructor
  · have unfolds := (depicts.unfolds_iff recorded (self_mem_occurrences node)).mpr rfl
    rw [numberIn_self, ← other.numberIn_self] at unfolds
    exact (otherDepicts.unfolds_iff otherRecorded (self_mem_occurrences other)).mp unfolds
  · intro path path'
    rw [recorded.map_serial_at?, otherRecorded.map_serial_at?,
      depicts.map_numberIn_at? recorded otherDepicts otherRecorded,
      depicts.map_numberIn_at? recorded otherDepicts otherRecorded]

end Depicts

end Graph

end Residual
