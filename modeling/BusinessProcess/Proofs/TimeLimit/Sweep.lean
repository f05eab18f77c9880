import BusinessProcess.Proofs.Graph.Face
import BusinessProcess.Proofs.Graph.Subtree
import BusinessProcess.Proofs.History.Removal

/-!
# What the sweep takes and what it counts

The sweep lists the elements of time limits first and then removes them one by one, and the removal
of a node takes along the flows that start or end there. All removals together are one erasure, so
the outcome is told by the process before the sweep alone: `Swept` says which elements are left and
what they lose, and `Reached.sweep_count` says how the number answered compares with what has gone.
-/

namespace BusinessProcess

namespace Graph

/-- What goes when nodes go that hold nothing: the nodes and the flows that start or end there. -/
def along (graph : Graph) (gone : ElementId → Bool) (id : ElementId) : Bool :=
  gone id || (graph.flow? id).any fun flow => gone flow.source || gone flow.target

/-- An id that names no flow goes only by itself. -/
theorem along_of_flow?_eq_none {graph : Graph} {gone : ElementId → Bool} {id : ElementId}
    (free : graph.flow? id = none) : graph.along gone id = gone id := by
  rw [along, free, Option.any_none, Bool.or_false]

/-- What goes with some nodes and then with others goes with all of them. -/
theorem along_without (graph : Graph) (first second : ElementId → Bool) (id : ElementId) :
    (graph.along first id || (graph.without (graph.along first)).along second id) =
      graph.along (fun other => first other || second other) id := by
  cases found : graph.flow? id with
  | none =>
      have free : (graph.without (graph.along first)).flow? id = none := by
        rw [flow?_without, found, ite_self]
      rw [along_of_flow?_eq_none found, along_of_flow?_eq_none free, along_of_flow?_eq_none found]
  | some flow =>
      have whole : ∀ gone : ElementId → Bool,
          graph.along gone id = (gone id || (gone flow.source || gone flow.target)) := by
        intro gone
        rw [along, found, Option.any_some]
      have later : (graph.without (graph.along first)).along second id =
          (second id || !graph.along first id && (second flow.source || second flow.target)) := by
        rw [along, flow?_without, found]
        cases graph.along first id <;> rfl
      rw [later, whole, whole]
      cases first id <;> cases first flow.source <;> cases first flow.target <;> simp

/-- What goes with flows and then along with nodes is the flows and what goes along with the
nodes. -/
theorem or_along_without (graph : Graph) (flows nodes : ElementId → Bool) (id : ElementId) :
    (flows id || (graph.without flows).along nodes id) = (flows id || graph.along nodes id) := by
  rw [along, along, flow?_without]
  cases flows id <;> simp

section HoldsNothing

variable {graph : Graph} (wellFormed : graph.WellFormed) {node : Node}
  (member : node ∈ graph.nodes) (holdsNothing : node.kind.isContainer = false)
include wellFormed member holdsNothing

/-- A node that holds nothing is not the root. -/
theorem WellFormed.ne_root_of_holdsNothing : node.id ≠ graph.root := by
  intro isRoot
  obtain ⟨top, topMember, isTop, isProcess, _⟩ := wellFormed.rooted
  rw [wellFormed.node_eq member topMember (isRoot.trans isTop.symm), isProcess] at holdsNothing
  cases holdsNothing

/-- A node that holds nothing goes with the flows that start or end there. -/
theorem WellFormed.doomedBy_of_holdsNothing (id : ElementId) :
    graph.doomedBy node.id id = graph.along (· = node.id) id := by
  have childless := wellFormed.childless_of_holdsNothing member holdsNothing
  have touched : ∀ flow ∈ graph.flows, touches (graph.subtree node.id) flow =
      (decide (flow.source = node.id) || decide (flow.target = node.id)) := by
    intro flow drawn
    rw [Bool.eq_iff_iff, Bool.or_eq_true, decide_eq_true_iff, decide_eq_true_iff]
    refine ⟨wellFormed.touches_of_childless member childless drawn, fun atEnd => ?_⟩
    have self := (wellFormed.mem_subtree_of_childless member childless).2 rfl
    rcases atEnd with isSource | isTarget
    · simp [touches, isSource, self]
    · simp [touches, isTarget, self]
  rw [Bool.eq_iff_iff, along, doomedBy, Bool.or_eq_true, Bool.or_eq_true, List.contains_iff_mem,
    List.contains_iff_mem, wellFormed.mem_subtree_of_childless member childless,
    decide_eq_true_iff, Option.any_eq_true]
  apply or_congr_right
  constructor
  · intro isTouching
    obtain ⟨flow, isFlow, rfl⟩ := List.mem_map.1 isTouching
    obtain ⟨drawn, touches⟩ := List.mem_filter.1 isFlow
    exact ⟨flow, flow?_of_mem wellFormed.distinct drawn, touched flow drawn ▸ touches⟩
  · rintro ⟨flow, found, atEnd⟩
    have drawn := mem_of_flow? found
    exact List.mem_map.2 ⟨flow, List.mem_filter.2 ⟨drawn, (touched flow drawn).trans atEnd⟩,
      id_of_flow? found⟩

/-- Removing a node that holds nothing erases it and the flows that start or end there. -/
theorem WellFormed.removeNode_of_holdsNothing :
    (∃ removed, graph.removeNode node.id =
        .ok (some removed, graph.without (graph.along (· = node.id)))) ∧
      (graph.without (graph.along (· = node.id))).WellFormed := by
  have other := wellFormed.ne_root_of_holdsNothing member holdsNothing
  have whole := wellFormed.removeNode_eq member other
  have left := wellFormed.without (wellFormed.severable_node member other)
  rw [without_congr graph (wellFormed.doomedBy_of_holdsNothing member holdsNothing)] at whole left
  exact ⟨⟨_, whole⟩, left⟩

end HoldsNothing

end Graph

namespace TimeLimit

open Graph

/-! ## The removals one by one -/

/-- Sweeping flows that are drawn erases them and counts each. -/
theorem sweepFlows_eq {graph : Graph} (wellFormed : graph.WellFormed) {ids : List ElementId}
    (distinct : ids.Nodup) (drawn : ∀ id ∈ ids, ∃ flow ∈ graph.flows, flow.id = id) :
    sweepFlows ids graph = .ok ids.length (graph.without ids.contains) ∧
      (graph.without ids.contains).WellFormed := by
  induction ids generalizing graph with
  | nil =>
      have nothing : graph.without [].contains = graph :=
        wellFormed.tidy.without_eq_self fun _ _ => rfl
      rw [nothing]
      exact ⟨rfl, wellFormed⟩
  | cons id rest inductionHypothesis =>
      obtain ⟨fresh, restDistinct⟩ := List.nodup_cons.1 distinct
      obtain ⟨flow, member, rfl⟩ := drawn id List.mem_cons_self
      have removed := wellFormed.removeFlow_eq (flow?_of_mem wellFormed.distinct member)
      have done : TimerChange.removeFlow flow.id graph =
          .ok (some flow) (graph.without (· = flow.id)) := by
        simp only [TimerChange.removeFlow, removed]
      have left := wellFormed.without (wellFormed.severable_flow member)
      have stillDrawn : ∀ id ∈ rest,
          ∃ other ∈ (graph.without (· = flow.id)).flows, other.id = id := by
        intro id isOther
        obtain ⟨other, otherMember, rfl⟩ := drawn id (List.mem_cons_of_mem _ isOther)
        have differs : other.id ≠ flow.id := fun same => fresh (same ▸ isOther)
        exact ⟨other, mem_flows_without.2 ⟨otherMember, by simpa using differs⟩, rfl⟩
      have all : (graph.without (· = flow.id)).without rest.contains =
          graph.without (flow.id :: rest).contains := by
        rw [without_without]
        exact without_congr graph fun id => by simp
      obtain ⟨others, kept⟩ := inductionHypothesis left restDistinct stillDrawn
      rw [all] at others kept
      refine ⟨?_, kept⟩
      rw [sweepFlows, TimerChange.bind_of_ok done, TimerChange.bind_of_ok others, List.length_cons,
        Nat.add_comm]
      rfl

/-- Sweeping nodes that hold nothing erases them and the flows that start or end at them, and
counts each node. -/
theorem sweepNodes_eq {graph : Graph} (wellFormed : graph.WellFormed) {ids : List ElementId}
    (distinct : ids.Nodup) (present : ∀ id ∈ ids,
      ∃ node ∈ graph.nodes, node.id = id ∧ node.kind.isContainer = false) :
    sweepNodes ids graph = .ok ids.length (graph.without (graph.along ids.contains)) ∧
      (graph.without (graph.along ids.contains)).WellFormed := by
  induction ids generalizing graph with
  | nil =>
      have nothing : graph.without (graph.along [].contains) = graph :=
        wellFormed.tidy.without_eq_self fun id _ => by
          rw [along]
          cases graph.flow? id <;> rfl
      rw [nothing]
      exact ⟨rfl, wellFormed⟩
  | cons id rest inductionHypothesis =>
      obtain ⟨fresh, restDistinct⟩ := List.nodup_cons.1 distinct
      obtain ⟨node, member, rfl, holdsNothing⟩ := present id List.mem_cons_self
      obtain ⟨⟨returned, removed⟩, left⟩ :=
        wellFormed.removeNode_of_holdsNothing member holdsNothing
      have done : TimerChange.removeNode node.id graph =
          .ok (some returned) (graph.without (graph.along (· = node.id))) := by
        simp only [TimerChange.removeNode, removed]
      have stillPresent : ∀ id ∈ rest, ∃ other ∈ (graph.without (graph.along (· = node.id))).nodes,
          other.id = id ∧ other.kind.isContainer = false := by
        intro id isOther
        obtain ⟨other, otherMember, rfl, bare⟩ := present id (List.mem_cons_of_mem _ isOther)
        have differs : other.id ≠ node.id := fun same => fresh (same ▸ isOther)
        have spared : graph.along (· = node.id) other.id = false := by
          rw [along_of_flow?_eq_none (flow?_eq_none_of_node wellFormed.distinct otherMember)]
          simpa using differs
        exact ⟨_, mem_nodes_without.2 ⟨other, otherMember, spared, rfl⟩, rfl, bare⟩
      have all : (graph.without (graph.along (· = node.id))).without
            ((graph.without (graph.along (· = node.id))).along rest.contains) =
          graph.without (graph.along (node.id :: rest).contains) := by
        rw [without_without]
        refine without_congr graph fun id => (along_without graph _ _ id).trans ?_
        simp [along]
      obtain ⟨others, kept⟩ := inductionHypothesis left restDistinct stillPresent
      rw [all] at others kept
      refine ⟨?_, kept⟩
      rw [sweepNodes, TimerChange.bind_of_ok done, TimerChange.bind_of_ok others, List.length_cons,
        Nat.add_comm]
      rfl

/-! ## The marks of time limits -/

/-- The node is a boundary event or a service task, and its id has an ending that goes with this
kind. -/
def MarkedNode (node : Node) : Prop :=
  (node.kind = .event .boundary ∧
    ∃ ending ∈ ["_overtime", "_timer", "_timer_loop"], ∃ start, node.id.text = start ++ ending) ∨
  (node.kind = .task .service ∧ ∃ start, node.id.text = start ++ "_service")

/-- The id of the flow has the ending of the flows of time limits. -/
def MarkedFlow (flow : SequenceFlow) : Prop :=
  ∃ start, flow.id.text = start ++ "_service_flow"

/-- The flow starts or ends at a marked node. -/
def JoinsMarked (graph : Graph) (flow : SequenceFlow) : Prop :=
  ∃ node ∈ graph.nodes, MarkedNode node ∧ (flow.source = node.id ∨ flow.target = node.id)

theorem isLimitNode_iff {node : Node} : isLimitNode node = true ↔ MarkedNode node := by
  have endings : (all.any fun limit => node.id.endsWith limit.boundaryEnding) = true ↔
      ∃ ending ∈ ["_overtime", "_timer", "_timer_loop"],
        ∃ start, node.id.text = start ++ ending := by
    simp only [all, List.any_cons, List.any_nil, Bool.or_false, Bool.or_eq_true, ElementId.endsWith,
      Text.endsWith_iff, boundaryEnding, List.mem_cons, List.not_mem_nil, or_false,
      exists_eq_or_imp, exists_eq_left]
  unfold isLimitNode MarkedNode
  split
  next isEvent => simp only [isEvent, endings, true_and, reduceCtorEq, false_and, or_false]
  next isService =>
    simp only [isService, ElementId.endsWith, Text.endsWith_iff, serviceEnding, reduceCtorEq,
      false_and, false_or, true_and]
  next notEvent notService =>
    simp only [Bool.false_eq_true, false_iff, not_or, not_and]
    exact ⟨fun isEvent => absurd isEvent notEvent, fun isService => absurd isService notService⟩

theorem isLimitFlow_iff {flow : SequenceFlow} : isLimitFlow flow = true ↔ MarkedFlow flow :=
  Text.endsWith_iff

instance : DecidablePred MarkedNode := fun _ => decidable_of_iff _ isLimitNode_iff

instance : DecidablePred MarkedFlow := fun _ => decidable_of_iff _ isLimitFlow_iff

instance (graph : Graph) : DecidablePred (JoinsMarked graph) := fun flow =>
  inferInstanceAs (Decidable (∃ node ∈ graph.nodes, MarkedNode node ∧ (flow.source = node.id ∨ _)))

/-- Marked nodes hold nothing. -/
theorem MarkedNode.holdsNothing {node : Node} (marked : MarkedNode node) :
    node.kind.isContainer = false := by
  rcases marked with ⟨kind, _⟩ | ⟨kind, _⟩ <;> rw [kind] <;> rfl

/-! ## The whole sweep -/

/-- The ids of the marked flows. -/
def markedFlows (graph : Graph) : List ElementId :=
  (graph.flows.filter (MarkedFlow ·)).map SequenceFlow.id

/-- The ids of the marked nodes. -/
def markedNodes (graph : Graph) : List ElementId :=
  (graph.nodes.filter (MarkedNode ·)).map Node.id

theorem mem_markedFlows {graph : Graph} {id : ElementId} :
    id ∈ markedFlows graph ↔ ∃ flow ∈ graph.flows, MarkedFlow flow ∧ flow.id = id := by
  simp [markedFlows, and_assoc]

theorem mem_markedNodes {graph : Graph} {id : ElementId} :
    id ∈ markedNodes graph ↔ ∃ node ∈ graph.nodes, MarkedNode node ∧ node.id = id := by
  simp [markedNodes, and_assoc]

/-- What the sweep takes: the marked flows, and what goes along with the marked nodes. -/
def doomedBySweep (graph : Graph) (id : ElementId) : Bool :=
  (markedFlows graph).contains id || graph.along (markedNodes graph).contains id

section Sweep

variable {graph : Graph} (wellFormed : graph.WellFormed)
include wellFormed

/-- The ids of the marked nodes name nodes that hold nothing, and the marked flows are drawn: the
sweep finds all that it has listed. -/
theorem sweep_eq :
    sweep graph = .ok ((graph.flows.filter (MarkedFlow ·)).length +
        (graph.nodes.filter (MarkedNode ·)).length) (graph.without (doomedBySweep graph)) ∧
      (graph.without (doomedBySweep graph)).WellFormed := by
  have listedFlows : (graph.flows.filter isLimitFlow).map SequenceFlow.id = markedFlows graph :=
    congrArg _ (List.filter_congr fun flow _ => by
      simp only [← isLimitFlow_iff, Bool.decide_eq_true])
  have listedNodes : (graph.nodes.filter isLimitNode).map Node.id = markedNodes graph :=
    congrArg _ (List.filter_congr fun node _ => by
      simp only [← isLimitNode_iff, Bool.decide_eq_true])
  obtain ⟨nodesDistinct, flowsDistinct, _⟩ := List.nodup_append.1 wellFormed.distinct
  have areDrawn : ∀ id ∈ markedFlows graph, ∃ flow ∈ graph.flows, flow.id = id := by
    intro id isMarked
    obtain ⟨flow, member, _, same⟩ := mem_markedFlows.1 isMarked
    exact ⟨flow, member, same⟩
  have flowsDiffer : (markedFlows graph).Nodup :=
    (List.filter_sublist.map SequenceFlow.id).nodup flowsDistinct
  obtain ⟨flowsSwept, between⟩ := sweepFlows_eq wellFormed flowsDiffer areDrawn
  have arePresent : ∀ id ∈ markedNodes graph,
      ∃ node ∈ (graph.without (markedFlows graph).contains).nodes,
        node.id = id ∧ node.kind.isContainer = false := by
    intro id isMarked
    obtain ⟨node, member, marked, rfl⟩ := mem_markedNodes.1 isMarked
    have spared : (markedFlows graph).contains node.id = false := by
      rw [← Bool.not_eq_true, List.contains_iff_mem, mem_markedFlows]
      rintro ⟨flow, drawn, _, same⟩
      exact id_ne_of_mem wellFormed.distinct member drawn same.symm
    exact ⟨_, mem_nodes_without.2 ⟨node, member, spared, rfl⟩, rfl, marked.holdsNothing⟩
  have nodesDiffer : (markedNodes graph).Nodup :=
    (List.filter_sublist.map Node.id).nodup nodesDistinct
  obtain ⟨nodesSwept, left⟩ := sweepNodes_eq between nodesDiffer arePresent
  have all : (graph.without _).without ((graph.without _).along _) =
      graph.without (doomedBySweep graph) :=
    (without_without graph _ _).trans (without_congr graph (or_along_without graph _ _))
  rw [all] at nodesSwept left
  refine ⟨?_, left⟩
  rw [sweep, TimerChange.bind_of_ok (TimerChange.get_eq graph), listedFlows, listedNodes,
    TimerChange.bind_of_ok flowsSwept, TimerChange.bind_of_ok nodesSwept, markedFlows, markedNodes,
    List.length_map, List.length_map]
  rfl

/-- Of the nodes, the marked ones go. -/
theorem doomedBySweep_node {node : Node} (member : node ∈ graph.nodes) :
    doomedBySweep graph node.id = decide (MarkedNode node) := by
  rw [doomedBySweep, along_of_flow?_eq_none (flow?_eq_none_of_node wellFormed.distinct member),
    Bool.eq_iff_iff, Bool.or_eq_true, List.contains_iff_mem, List.contains_iff_mem,
    mem_markedFlows, mem_markedNodes, decide_eq_true_iff]
  constructor
  · rintro (⟨flow, drawn, _, same⟩ | ⟨other, otherMember, marked, same⟩)
    · exact absurd same.symm (id_ne_of_mem wellFormed.distinct member drawn)
    · exact wellFormed.node_eq otherMember member same ▸ marked
  · exact fun marked => .inr ⟨node, member, marked, rfl⟩

/-- Of the flows, the marked ones go and those that start or end at a marked node. -/
theorem doomedBySweep_flow {flow : SequenceFlow} (drawn : flow ∈ graph.flows) :
    doomedBySweep graph flow.id = decide (MarkedFlow flow ∨ JoinsMarked graph flow) := by
  have found := flow?_of_mem wellFormed.distinct drawn
  have notNode : ∀ node ∈ graph.nodes, node.id ≠ flow.id := fun node member =>
    id_ne_of_mem wellFormed.distinct member drawn
  have isMarked : (∃ other ∈ graph.flows, MarkedFlow other ∧ other.id = flow.id) ↔
      MarkedFlow flow := by
    refine ⟨fun ⟨other, isOther, marked, same⟩ => ?_, fun marked => ⟨flow, drawn, marked, rfl⟩⟩
    rw [← same, flow?_of_mem wellFormed.distinct isOther] at found
    exact Option.some.inj found ▸ marked
  rw [doomedBySweep, along, found, Option.any_some, Bool.eq_iff_iff, decide_eq_true_iff]
  simp only [Bool.or_eq_true, List.contains_iff_mem, mem_markedFlows, mem_markedNodes, isMarked]
  refine or_congr_right ⟨?_, ?_⟩
  · rintro (⟨node, member, _, same⟩ | ⟨node, member, marked, isSource⟩ |
      ⟨node, member, marked, isTarget⟩)
    · exact absurd same (notNode node member)
    · exact ⟨node, member, marked, .inl isSource.symm⟩
    · exact ⟨node, member, marked, .inr isTarget.symm⟩
  · rintro ⟨node, member, marked, isSource | isTarget⟩
    · exact .inr (.inl ⟨node, member, marked, isSource.symm⟩)
    · exact .inr (.inr ⟨node, member, marked, isTarget.symm⟩)

/-- The nodes that are left, each without what it lost. -/
theorem nodes_swept : (graph.without (doomedBySweep graph)).nodes =
    (graph.nodes.filter (¬ MarkedNode ·)).map
      (graph.bereave (graph.without (doomedBySweep graph))) := by
  have kept : (graph.nodes.filter (!doomedBySweep graph ·.id)) =
      graph.nodes.filter (¬ MarkedNode ·) :=
    List.filter_congr fun node member => by rw [doomedBySweep_node wellFormed member, decide_not]
  rw [← kept]
  exact List.map_congr_left fun node isKept =>
    wellFormed.prune_eq_bereave _ (List.mem_of_mem_filter isKept)

/-- The flows that are left. -/
theorem flows_swept : (graph.without (doomedBySweep graph)).flows =
    graph.flows.filter fun flow => ¬ MarkedFlow flow ∧ ¬ JoinsMarked graph flow :=
  List.filter_congr fun flow drawn => by
    rw [doomedBySweep_flow wellFormed drawn, ← decide_not, decide_eq_decide, not_or]

/-- Where nothing is marked, the sweep takes nothing. -/
theorem sweep_of_unmarked (nodes : graph.nodes.filter (MarkedNode ·) = [])
    (flows : graph.flows.filter (MarkedFlow ·) = []) : sweep graph = .ok 0 graph := by
  have nothing : graph.without (doomedBySweep graph) = graph :=
    wellFormed.tidy.without_eq_self fun id _ => by
      rw [doomedBySweep, markedFlows, markedNodes, nodes, flows, along]
      cases graph.flow? id <;> rfl
  rw [(sweep_eq wellFormed).1, nothing, nodes, flows]
  rfl

/-- What is counted and the flows that go uncounted are what the process loses. -/
theorem length_swept : graph.nodes.length + graph.flows.length =
    (graph.without (doomedBySweep graph)).nodes.length +
      (graph.without (doomedBySweep graph)).flows.length +
      ((graph.flows.filter (MarkedFlow ·)).length + (graph.nodes.filter (MarkedNode ·)).length) +
      (graph.flows.filter fun flow => ¬ MarkedFlow flow ∧ JoinsMarked graph flow).length := by
  have nodes := List.length_eq_length_filter_add (l := graph.nodes) (MarkedNode ·)
  have flows := List.length_eq_length_filter_add (l := graph.flows) (MarkedFlow ·)
  have others := List.length_eq_length_filter_add
    (l := graph.flows.filter (¬ MarkedFlow ·)) (JoinsMarked graph ·)
  rw [List.filter_filter, List.filter_filter] at others
  rw [nodes_swept wellFormed, flows_swept wellFormed, List.length_map]
  simp only [← decide_not, ← Bool.decide_and, and_comm] at nodes flows others ⊢
  omega

end Sweep

/-- The process `left` is what is left of `graph` without the marked nodes, the marked flows and
the flows that start or end at a marked node. -/
structure Swept (graph left : Graph) : Prop where
  root : left.root = graph.root
  /-- The nodes that are not marked stay, in their order. -/
  nodes : left.nodes = (graph.nodes.filter (¬ MarkedNode ·)).map (graph.bereave left)
  /-- The flows that are not marked and join no marked node stay, in their order. -/
  flows : left.flows = graph.flows.filter fun flow =>
    ¬ MarkedFlow flow ∧ ¬ JoinsMarked graph flow

/-- Nothing marked is left. -/
theorem Swept.unmarked {graph left : Graph} (isSwept : Swept graph left) :
    left.nodes.filter (MarkedNode ·) = [] ∧ left.flows.filter (MarkedFlow ·) = [] := by
  rw [List.filter_eq_nil_iff, List.filter_eq_nil_iff, isSwept.nodes, isSwept.flows]
  constructor
  · intro node isLeft
    obtain ⟨before, isBefore, rfl⟩ := List.mem_map.1 isLeft
    -- Neither the kind nor the id of a node changes.
    exact mt of_decide_eq_true (of_decide_eq_true (List.mem_filter.1 isBefore).2)
  · intro flow isLeft
    exact mt of_decide_eq_true (of_decide_eq_true (List.mem_filter.1 isLeft).2).1

end TimeLimit

open Graph TimeLimit

/-- In every reached process the sweep is done and takes the boundary events and the service tasks
whose ids have the endings of time limits, the flows with the ending of such flows, and the flows
that start or end at one of these nodes. All else stays in its place, without the children and the
references that went, and a second sweep takes nothing. -/
theorem Reached.sweep_exact {policy : Policy} {root : ElementId} {ledger : Ledger}
    (reached : Reached policy root ledger) : ∃ count left,
      sweep ledger.graph = .ok count left ∧ Swept ledger.graph left ∧
        sweep left = .ok 0 left := by
  have wellFormed := reached.sound.wellFormed
  obtain ⟨done, leftWellFormed⟩ := sweep_eq wellFormed
  have isSwept : Swept ledger.graph (ledger.graph.without (doomedBySweep ledger.graph)) :=
    ⟨rfl, nodes_swept wellFormed, flows_swept wellFormed⟩
  obtain ⟨noNode, noFlow⟩ := isSwept.unmarked
  exact ⟨_, _, done, isSwept, sweep_of_unmarked leftWellFormed noNode noFlow⟩

/-- The deadline of a task in a sub-process goes, and with it a flow that was drawn from its event
to the task. So does a flow outside that has the ending by chance. A user task and a start event
with endings of time limits stay, and so does a reference that was stale before. -/
theorem sweep_exact_of_scope : ∃ ledger, Reached ⟨true, true⟩ ⟨"P"⟩ ledger ∧
    ledger.graph.ids = [⟨"P"⟩, ⟨"S"⟩, ⟨"T"⟩, ⟨"T_overtime"⟩, ⟨"T_overtime_service"⟩, ⟨"A_service"⟩,
      ⟨"B_timer"⟩, ⟨"T_overtime_service_flow"⟩, ⟨"F"⟩, ⟨"G_service_flow"⟩, ⟨"H"⟩] ∧
    ∃ count left, sweep ledger.graph = .ok count left ∧ Swept ledger.graph left ∧
      sweep left = .ok 0 left ∧
      left.ids = [⟨"P"⟩, ⟨"S"⟩, ⟨"T"⟩, ⟨"A_service"⟩, ⟨"B_timer"⟩, ⟨"H"⟩] ∧
      (left.node? ⟨"T"⟩).map Node.incoming = some [⟨"ghost_service_flow"⟩] := by
  let task : Node := { Node.alone ⟨"T"⟩ (.task .user) with incoming := [⟨"ghost_service_flow"⟩] }
  let scope := ((Ledger.new ⟨"P"⟩).record
    (.addNode ⟨"P"⟩ (.alone ⟨"S"⟩ (.subProcess false)))).record
    (.addNode ⟨"S"⟩ task)
  have isScope : Reached ⟨true, true⟩ ⟨"P"⟩ scope :=
    .edit (Reached.new.addAlone _ _ _)
      (.fresh ⟨"T"⟩ (.task .user) ⟨rfl, rfl, rfl, rfl, fun raw => nomatch raw⟩)
  let built := (((((((scope.record
    (.addNode ⟨"S"⟩ (.alone ⟨"T_overtime"⟩ (.event .boundary)))).record
    (.addNode ⟨"S"⟩ (.alone ⟨"T_overtime_service"⟩ (.task .service)))).record
    (.addNode ⟨"P"⟩ (.alone ⟨"A_service"⟩ (.task .user)))).record
    (.addNode ⟨"P"⟩ (.alone ⟨"B_timer"⟩ (.event .start)))).record
    (.addFlow ⟨"S"⟩ (.between ⟨"T_overtime_service_flow"⟩ ⟨"T_overtime"⟩
      ⟨"T_overtime_service"⟩))).record
    (.addFlow ⟨"S"⟩ (.between ⟨"F"⟩ ⟨"T_overtime"⟩ ⟨"T"⟩))).record
    (.addFlow ⟨"P"⟩ (.between ⟨"G_service_flow"⟩ ⟨"S"⟩ ⟨"A_service"⟩))).record
    (.addFlow ⟨"P"⟩ (.between ⟨"H"⟩ ⟨"B_timer"⟩ ⟨"A_service"⟩))
  have isBuilt : Reached ⟨true, true⟩ ⟨"P"⟩ built :=
    .edit (.edit (.edit (.edit ((((isScope.addAlone _ _ _).addAlone _ _ _).addAlone _ _ _).addAlone
      _ _ _) trivial) trivial) trivial) trivial
  obtain ⟨count, left, done, isSwept, again⟩ := isBuilt.sweep_exact
  have isLeft : sweep.left built.graph = left := by
    simp only [TimerChange.left, done]
  refine ⟨built, isBuilt, by decide, count, left, done, isSwept, again, ?_, ?_⟩
  · rw [← isLeft]
    decide +kernel
  · rw [← isLeft]
    decide +kernel

/-- In every reached process the sweep counts all that goes except for the flows that are not marked
and start or end at a marked node. Its answer is the number of elements that the process loses
exactly if every flow that joins a marked node is marked. -/
theorem Reached.sweep_count {policy : Policy} {root : ElementId} {ledger : Ledger}
    (reached : Reached policy root ledger) : ∃ count left, sweep ledger.graph = .ok count left ∧
      ledger.graph.nodes.length + ledger.graph.flows.length =
        left.nodes.length + left.flows.length + count + (ledger.graph.flows.filter fun flow =>
          ¬ MarkedFlow flow ∧ JoinsMarked ledger.graph flow).length ∧
      (ledger.graph.nodes.length + ledger.graph.flows.length =
          left.nodes.length + left.flows.length + count ↔
        ∀ flow ∈ ledger.graph.flows, JoinsMarked ledger.graph flow → MarkedFlow flow) := by
  have wellFormed := reached.sound.wellFormed
  have lost := length_swept wellFormed
  refine ⟨_, _, (sweep_eq wellFormed).1, lost, ?_⟩
  rw [lost, Nat.add_eq_left, List.length_eq_zero_iff, List.filter_eq_nil_iff]
  simp only [decide_eq_true_iff, not_and, not_imp_not]

/-- Two flows are drawn from a boundary event, one of them with the ending of time limits. The
process loses three elements, of which two are counted. -/
theorem sweep_count_of_drawn_event : ∃ ledger, Reached ⟨false, false⟩ ⟨"P"⟩ ledger ∧
    ∃ count left, sweep ledger.graph = .ok count left ∧
      ledger.graph.nodes.length + ledger.graph.flows.length =
        left.nodes.length + left.flows.length + count + 1 := by
  let built := ((((Ledger.new ⟨"P"⟩).record
    (.addNode ⟨"P"⟩ (.alone ⟨"T"⟩ (.task .user)))).record
    (.addNode ⟨"P"⟩ (.alone ⟨"T_overtime"⟩ (.event .boundary)))).record
    (.addFlow ⟨"P"⟩ (.between ⟨"F"⟩ ⟨"T_overtime"⟩ ⟨"T"⟩))).record
    (.addFlow ⟨"P"⟩ (.between ⟨"G_service_flow"⟩ ⟨"T_overtime"⟩ ⟨"T"⟩))
  have isBuilt : Reached ⟨false, false⟩ ⟨"P"⟩ built :=
    .edit (.edit ((Reached.new.addAlone _ _ _).addAlone _ _ _) trivial) trivial
  obtain ⟨count, left, done, lost, _⟩ := isBuilt.sweep_count
  have uncounted : (built.graph.flows.filter fun flow =>
      ¬ MarkedFlow flow ∧ JoinsMarked built.graph flow).length = 1 := by
    decide +kernel
  exact ⟨built, isBuilt, count, left, done, lost.trans (by rw [uncounted])⟩

/-- The deadline of a task is set and a flow is drawn from its event to another task. The sweep
takes four elements and answers three. -/
theorem sweep_miscounts_of_drawn_event : ∃ ledger, Reached ⟨false, false⟩ ⟨"P"⟩ ledger ∧
    sweep.answer ledger.graph = .ok 3 ∧
    ledger.graph.nodes.length = (sweep.left ledger.graph).nodes.length + 2 ∧
    ledger.graph.flows.length = (sweep.left ledger.graph).flows.length + 2 := by
  let tasks := ((Ledger.new ⟨"P"⟩).record
    (.addNode ⟨"P"⟩ (.alone ⟨"T"⟩ (.task .user)))).record
    (.addNode ⟨"P"⟩ (.alone ⟨"A"⟩ (.task .user)))
  have isBuilt : Reached ⟨false, false⟩ ⟨"P"⟩ tasks := (Reached.new.addAlone _ _ _).addAlone _ _ _
  obtain ⟨timed, isTimed, set⟩ :=
    isBuilt.exists_left (.setLimit "delegate" ⟨"T"⟩ .deadline (some "2H"))
  let drawn : Edit := .addFlow ⟨"P"⟩ (.between ⟨"F"⟩ ⟨"T_overtime"⟩ ⟨"A"⟩)
  have isDrawn : Reached ⟨false, false⟩ ⟨"P"⟩ (timed.record drawn) := .edit isTimed trivial
  refine ⟨timed.record drawn, isDrawn, ?_⟩
  rw [show (timed.record drawn).graph = drawn.run timed.graph from rfl, set]
  decide +kernel

end BusinessProcess
