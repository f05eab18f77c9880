import BusinessProcess.Proofs.Graph.Containment

/-!
# Erasing parts of a process

A part of a process can be erased if it takes along what it holds and the flows that it is joined
to; what is left is well formed then. The operations that remove flows and nodes erase such parts.
A removed node comes back without children, so it may be added again like a new one.
-/

namespace BusinessProcess.Graph

/-- The doomed elements can be erased without leaving anything behind that relies on them. -/
structure Severable (graph : Graph) (doomed : ElementId → Bool) : Prop where
  root : doomed graph.root = false
  /-- What a doomed container holds is doomed. -/
  inside : ∀ element ∈ graph.elements, ∀ container, element.parent = some container →
    doomed container = true → doomed element.id = true
  /-- A flow from or to a doomed node is doomed. -/
  joined : ∀ flow ∈ graph.flows, doomed flow.source = true ∨ doomed flow.target = true →
    doomed flow.id = true

/-- A node that is not doomed is still there, at most pruned. -/
private theorem exists_mem_nodes_without {graph : Graph} {doomed : ElementId → Bool} {node : Node}
    (member : node ∈ graph.nodes) (kept : doomed node.id = false) :
    ∃ left ∈ (graph.without doomed).nodes, left.id = node.id := by
  exact ⟨graph.prune doomed node, mem_nodes_without.2 ⟨node, member, kept, rfl⟩, rfl⟩

/-- An element of what is left was an element before. -/
private theorem exists_of_mem_elements_without {graph : Graph} {doomed : ElementId → Bool}
    {element : Element} (member : element ∈ (graph.without doomed).elements) :
    ∃ before ∈ graph.elements, doomed before.id = false ∧ before.id = element.id ∧
      before.parent = element.parent := by
  cases element with
  | node node =>
      obtain ⟨before, present, kept, rfl⟩ := mem_nodes_without.1 (node_mem_elements.1 member)
      exact ⟨.node before, node_mem_elements.2 present, kept, rfl, rfl⟩
  | flow flow =>
      obtain ⟨present, kept⟩ := mem_flows_without.1 (flow_mem_elements.1 member)
      exact ⟨.flow flow, flow_mem_elements.2 present, kept, rfl, rfl⟩

/-- What is left after erasing a severable part is well formed. -/
theorem WellFormed.without {graph : Graph} (wellFormed : graph.WellFormed)
    {doomed : ElementId → Bool} (severable : graph.Severable doomed) :
    (graph.without doomed).WellFormed where
  distinct := (wellFormed.tidy.without doomed).distinct
  listed := (wellFormed.tidy.without doomed).listed
  joined := by
    intro flow member
    obtain ⟨present, kept⟩ := mem_flows_without.1 member
    have keepsEnds : doomed flow.source = false ∧ doomed flow.target = false := by
      have notBoth := mt (severable.joined flow present) (by simp [kept])
      simpa using notBoth
    obtain ⟨⟨source, sourceMember, sourceId⟩, target, targetMember, targetId⟩ :=
      wellFormed.joined flow present
    obtain ⟨leftSource, leftSourceMember, sameSource⟩ :=
      exists_mem_nodes_without sourceMember (by rw [sourceId]; exact keepsEnds.1)
    obtain ⟨leftTarget, leftTargetMember, sameTarget⟩ :=
      exists_mem_nodes_without targetMember (by rw [targetId]; exact keepsEnds.2)
    exact ⟨⟨leftSource, leftSourceMember, sameSource.trans sourceId⟩,
      leftTarget, leftTargetMember, sameTarget.trans targetId⟩
  rooted := by
    obtain ⟨root, member, rootId, kind, parent⟩ := wellFormed.rooted
    have kept : doomed root.id = false := by
      rw [rootId]
      exact severable.root
    exact ⟨graph.prune doomed root, mem_nodes_without.2 ⟨root, member, kept, rfl⟩, rootId, kind,
      parent⟩
  held := by
    intro element member other
    obtain ⟨before, present, kept, sameId, sameParent⟩ := exists_of_mem_elements_without member
    obtain ⟨container, containerMember, named, isContainer, once⟩ :=
      wellFormed.held before present (by rw [sameId]; exact other)
    have containerKept : doomed container.id = false := by
      have notDoomed := mt (severable.inside before present container.id named) (by simp [kept])
      simpa using notDoomed
    refine ⟨graph.prune doomed container,
      mem_nodes_without.2 ⟨container, containerMember, containerKept, rfl⟩,
      sameParent ▸ named, isContainer, ?_⟩
    rw [← sameId, prune_children, List.count_filter (by simp [kept])]
    exact once
  grounded := by
    intro node member
    obtain ⟨before, present, kept, rfl⟩ := mem_nodes_without.1 member
    obtain ⟨depth, within⟩ := wellFormed.grounded before present
    -- Along the way down to a node that is not doomed nothing is doomed.
    have remains : ∀ {depth id}, graph.Within graph.root depth id → doomed id = false →
        (graph.without doomed).Within graph.root depth id := by
      intro depth id within
      induction within with
      | here => exact fun _ => .here
      | @inside depth container inner _ innerMember parent inductionHypothesis =>
          intro innerKept
          have containerKept : doomed container = false := by
            have notDoomed := mt (severable.inside (.node inner)
              (node_mem_elements.2 innerMember) container parent) (by
                rw [show (Element.node inner).id = inner.id from rfl, innerKept]
                exact Bool.false_ne_true)
            simpa using notDoomed
          have left := mem_nodes_without.2 ⟨inner, innerMember, innerKept, rfl⟩
          have deeper := Within.inside (inductionHypothesis containerKept) left parent
          exact deeper
    exact ⟨depth, remains within kept⟩

/-! ## Removing -/

/-- A flow that is not there is not missed. -/
theorem removeFlow_of_flow?_eq_none {graph : Graph} {id : ElementId}
    (absent : graph.flow? id = none) : graph.removeFlow id = (none, graph) := by
  simp only [removeFlow, absent]

/-- A removed flow is erased. -/
theorem WellFormed.removeFlow_eq {graph : Graph} (wellFormed : graph.WellFormed) {id : ElementId}
    {flow : SequenceFlow} (found : graph.flow? id = some flow) :
    graph.removeFlow id = (some flow, graph.without (· = id)) := by
  obtain rfl := id_of_flow? found
  have free := node?_eq_none_of_flow wellFormed.distinct (mem_of_flow? found)
  refine Prod.ext ?_ (Graph.removeFlow_eq wellFormed.tidy free)
  simp only [Graph.removeFlow, found]

/-- A single flow is severable. -/
theorem WellFormed.severable_flow {graph : Graph} (wellFormed : graph.WellFormed)
    {flow : SequenceFlow} (member : flow ∈ graph.flows) :
    graph.Severable (· = flow.id) where
  root := by simpa using (wellFormed.flow_id_ne_root member).symm
  inside := by
    intro element present container parent isFlow
    obtain ⟨node, nodeMember, rfl, _⟩ := wellFormed.parent_named present parent
    exact absurd (by simpa using isFlow) (id_ne_of_mem wellFormed.distinct nodeMember member)
  joined := by
    intro other present atEnd
    obtain ⟨⟨source, sourceMember, sourceId⟩, target, targetMember, targetId⟩ :=
      wellFormed.joined other present
    rw [← sourceId, ← targetId] at atEnd
    rcases atEnd with isFlow | isFlow
    · exact absurd (by simpa using isFlow) (id_ne_of_mem wellFormed.distinct sourceMember member)
    · exact absurd (by simpa using isFlow) (id_ne_of_mem wellFormed.distinct targetMember member)

/-- A flow is either not there, or it is erased. -/
theorem WellFormed.removeFlow_cases {graph : Graph} (wellFormed : graph.WellFormed)
    (id : ElementId) : (graph.flow? id = none ∧ graph.removeFlow id = (none, graph)) ∨
      ∃ flow ∈ graph.flows, flow.id = id ∧
        graph.removeFlow id = (some flow, graph.without (· = id)) := by
  cases found : graph.flow? id with
  | none => exact .inl ⟨rfl, removeFlow_of_flow?_eq_none found⟩
  | some flow =>
      exact .inr ⟨flow, mem_of_flow? found, id_of_flow? found, wellFormed.removeFlow_eq found⟩

theorem WellFormed.removeFlow {graph : Graph} (wellFormed : graph.WellFormed) (id : ElementId) :
    (graph.removeFlow id).2.WellFormed := by
  rcases wellFormed.removeFlow_cases id with ⟨_, removed⟩ | ⟨flow, member, rfl, removed⟩
  · rw [removed]
    exact wellFormed
  · rw [removed]
    exact wellFormed.without (wellFormed.severable_flow member)

/-- Removing a flow does not change which node is the root. -/
theorem root_removeFlow (graph : Graph) (id : ElementId) :
    (graph.removeFlow id).2.root = graph.root := by
  cases found : graph.flow? id with
  | none => rw [removeFlow_of_flow?_eq_none found]
  | some flow =>
      simp only [Graph.removeFlow, found, updateParent]
      split <;> rfl

/-- The node that is taken out is the one that was there. -/
theorem detachNode_fst (graph : Graph) (id : ElementId) :
    (graph.detachNode id).1 = graph.node? id := by
  unfold detachNode
  split
  next absent => exact absent.symm
  next found => exact found.symm

/-- The flows that touch a node or anything in it. -/
def touching (graph : Graph) (id : ElementId) : List ElementId :=
  (graph.flows.filter (touches (graph.subtree id))).map SequenceFlow.id

/-- What goes when a node is removed: all nodes in it and all flows that touch any of them. -/
def doomedBy (graph : Graph) (id other : ElementId) : Bool :=
  (graph.subtree id).contains other || (graph.touching id).contains other

/-- A doomed node is in the removed one. -/
theorem doomedBy_node {graph : Graph} (wellFormed : graph.WellFormed) {inner : Node}
    (present : inner ∈ graph.nodes) (id : ElementId) :
    graph.doomedBy id inner.id = true ↔ inner.id ∈ graph.subtree id := by
  have notFlow : inner.id ∉ graph.touching id := by
    intro touched
    obtain ⟨flow, flowMember, same⟩ := List.mem_map.1 touched
    exact id_ne_of_mem wellFormed.distinct present (List.mem_of_mem_filter flowMember) same.symm
  simp [doomedBy, notFlow]

/-- A flow that touches the removed node is doomed. -/
theorem doomedBy_flow {graph : Graph} {flow : SequenceFlow} {id : ElementId}
    (present : flow ∈ graph.flows) (touched : touches (graph.subtree id) flow = true) :
    graph.doomedBy id flow.id = true := by
  have listed : flow.id ∈ graph.touching id :=
    List.mem_map.2 ⟨flow, List.mem_filter.2 ⟨present, touched⟩, rfl⟩
  simp [doomedBy, listed]

section Node

variable {graph : Graph} (wellFormed : graph.WellFormed) {node : Node}
  (member : node ∈ graph.nodes)
include wellFormed member

/-- The subtree of a node consists of the node and of others. -/
private theorem exists_subtree_eq :
    ∃ below, graph.subtree node.id = node.id :: below ∧ node.id ∉ below := by
  obtain ⟨others, size⟩ : ∃ others, graph.nodes.length = others + 1 :=
    ⟨graph.nodes.length - 1, by have := List.length_pos_of_mem member; omega⟩
  refine ⟨(graph.childNodes node.id).flatMap fun child => graph.nodesBelow others child.id, ?_, ?_⟩
  · rw [subtree, size, nodesBelow]
  · intro again
    obtain ⟨child, isChild, below⟩ := List.mem_flatMap.1 again
    obtain ⟨childMember, parent⟩ := wellFormed.mem_childNodes.1 isChild
    obtain ⟨depth, _, within⟩ := wellFormed.mem_nodesBelow.1 below
    obtain ⟨level, above⟩ := wellFormed.grounded node member
    have cycle := above.trans (Within.succ_iff.2 ⟨child, childMember, parent, within⟩)
    have same := wellFormed.depth_unique above cycle
    omega

/-- What goes with a node other than the root is severable. -/
theorem WellFormed.severable_node (other : node.id ≠ graph.root) :
    graph.Severable (graph.doomedBy node.id) where
  root := by
    obtain ⟨root, rootMember, rootId, _⟩ := wellFormed.rooted
    rw [← Bool.not_eq_true, ← rootId, doomedBy_node wellFormed rootMember,
      wellFormed.mem_subtree member]
    rintro ⟨depth, within⟩
    obtain ⟨level, above⟩ := wellFormed.grounded node member
    have sum := wellFormed.depth_unique (rootId ▸ above.trans within) .here
    obtain rfl : level = 0 := by omega
    rcases above.invert with ⟨_, isRoot⟩ | ⟨_, _, _, _, impossible, _⟩
    · exact other isRoot
    · cases impossible
  inside := by
    intro element present container parent doomed
    obtain ⟨holder, holderMember, rfl, _⟩ := wellFormed.parent_named present parent
    have inSubtree := (doomedBy_node wellFormed holderMember node.id).1 doomed
    cases element with
    | node inner =>
        have innerMember := node_mem_elements.1 present
        obtain ⟨depth, within⟩ := (wellFormed.mem_subtree member).1 inSubtree
        refine (doomedBy_node wellFormed innerMember node.id).2 ?_
        exact (wellFormed.mem_subtree member).2 ⟨depth + 1, .inside within innerMember parent⟩
    | flow flow =>
        refine doomedBy_flow (flow_mem_elements.1 present) ?_
        have named : flow.parent = some holder.id := parent
        simp [touches, named, inSubtree]
  joined := by
    intro flow present atEnd
    obtain ⟨⟨source, sourceMember, sourceId⟩, target, targetMember, targetId⟩ :=
      wellFormed.joined flow present
    refine doomedBy_flow present ?_
    rw [← sourceId, ← targetId, doomedBy_node wellFormed sourceMember,
      doomedBy_node wellFormed targetMember, sourceId, targetId] at atEnd
    rcases atEnd with inSubtree | inSubtree <;> simp [touches, inSubtree]

/-- What is left of the removed node does not depend on whether the node itself is doomed. -/
private theorem prune_subtree {below : List ElementId}
    (subtree : graph.subtree node.id = node.id :: below) :
    graph.prune (fun id => (graph.touching node.id).contains id || below.contains id) node =
      graph.prune (graph.doomedBy node.id) node := by
  have others : ∀ id, id ≠ node.id →
      ((graph.touching node.id).contains id || below.contains id) =
        graph.doomedBy node.id id := by
    intro id differs
    simp [doomedBy, subtree, differs, Bool.or_comm]
  refine prune_congr (fun child isListed => others child ?_) fun reference joined =>
    others reference ?_
  · rintro rfl
    obtain ⟨element, held, same, parent⟩ := wellFormed.listed node member _ isListed
    exact wellFormed.acyclic node.id (.single ⟨element, held, same, parent⟩)
  · rintro rfl
    simp [joins, flow?_eq_none_of_node wellFormed.distinct member] at joined

/-- Removing a node other than the root erases it together with all in it and all that touches
any of it. -/
theorem WellFormed.removeNode_eq (other : node.id ≠ graph.root) :
    graph.removeNode node.id = .ok (some (graph.prune (graph.doomedBy node.id) node),
      graph.without (graph.doomedBy node.id)) := by
  obtain ⟨below, subtree, notBelow⟩ := exists_subtree_eq wellFormed member
  have found := node?_of_mem wellFormed.distinct member
  have freeFlows : ∀ id ∈ graph.touching node.id, graph.node? id = none := by
    intro id touched
    obtain ⟨flow, flowMember, rfl⟩ := List.mem_map.1 touched
    exact node?_eq_none_of_flow wellFormed.distinct (List.mem_of_mem_filter flowMember)
  have freeNodes : ∀ id ∈ graph.subtree node.id, graph.flow? id = none := by
    intro id inSubtree
    obtain ⟨depth, within⟩ := (wellFormed.mem_subtree member).1 inSubtree
    rcases within.invert with ⟨_, rfl⟩ | ⟨_, _, inner, innerMember, _, rfl, _⟩
    · exact flow?_eq_none_of_node wellFormed.distinct member
    · exact flow?_eq_none_of_node wellFormed.distinct innerMember
  have notTouching : node.id ∉ graph.touching node.id := by
    intro touched
    rw [freeFlows node.id touched] at found
    cases found
  -- The flows go first, then what lies below the node, then the node itself.
  let gone (id : ElementId) : Bool := (graph.touching node.id).contains id || below.contains id
  have cleared : graph.removeFlows (graph.touching node.id) =
      graph.without (graph.touching node.id).contains :=
    removeFlows_eq wellFormed.tidy freeFlows
  have emptied : below.reverse.foldl (fun graph id => (graph.detachNode id).2)
      (graph.without (graph.touching node.id).contains) = graph.without gone := by
    rw [foldl_detachNode_eq (wellFormed.tidy.without _), without_without]
    · refine without_congr graph fun id => ?_
      simp [gone]
    · intro id isBelow
      rw [flow?_without, freeNodes id (by simp [subtree, List.mem_reverse.1 isBelow])]
      simp
  have detached : ((graph.without gone).detachNode node.id).2 =
      graph.without (graph.doomedBy node.id) := by
    rw [detachNode_eq (wellFormed.tidy.without _), without_without]
    · refine without_congr graph fun id => ?_
      by_cases same : id = node.id <;> simp [gone, doomedBy, subtree, same, Bool.or_comm]
    · rw [flow?_without, freeNodes node.id (by simp [subtree])]
      simp
  have returned : ((graph.without gone).detachNode node.id).1 =
      some (graph.prune (graph.doomedBy node.id) node) := by
    rw [detachNode_fst, node?_without, found, if_neg (by simp [gone, notTouching, notBelow]),
      Option.map_some, prune_subtree wellFormed member subtree]
  have steps : graph.removeNode node.id = .ok ((graph.without gone).detachNode node.id) := by
    simp only [removeNode, other, if_false, found]
    rw [show (graph.flows.filter (touches (graph.subtree node.id))).map SequenceFlow.id =
      graph.touching node.id from rfl, cleared, subtree, List.tail_cons, emptied]
  rw [steps, ← returned, ← detached]

/-- The removed node goes itself. -/
theorem WellFormed.doomedBy_self : graph.doomedBy node.id node.id = true :=
  (doomedBy_node wellFormed member node.id).2 ((wellFormed.mem_subtree member).2 ⟨0, .here⟩)

/-- A removed node comes back without children. -/
theorem WellFormed.children_removed (other : node.id ≠ graph.root) :
    (graph.prune (graph.doomedBy node.id) node).children = [] := by
  refine List.filter_eq_nil_iff.2 fun child isListed => ?_
  obtain ⟨element, held, rfl, parent⟩ := wellFormed.listed node member child isListed
  have doomed := (wellFormed.severable_node member other).inside element held node.id parent
    (wellFormed.doomedBy_self member)
  simp [doomed]

end Node

/-- Removing a node is refused, or there is no such node, or the node is erased with all that
belongs to it. -/
theorem WellFormed.removeNode_cases {graph : Graph} (wellFormed : graph.WellFormed)
    (id : ElementId) :
    (id = graph.root ∧ graph.removeNode id = .error (.rootRemoval id)) ∨
      (graph.node? id = none ∧ graph.removeNode id = .ok (none, graph)) ∨
      ∃ node ∈ graph.nodes, node.id = id ∧ node.id ≠ graph.root ∧
        graph.removeNode id =
          .ok (some (graph.prune (graph.doomedBy id) node), graph.without (graph.doomedBy id)) := by
  by_cases isRoot : id = graph.root
  · exact .inl ⟨isRoot, by simp only [removeNode, isRoot, if_true]⟩
  · refine .inr ?_
    cases found : graph.node? id with
    | none => exact .inl ⟨rfl, by simp only [removeNode, isRoot, if_false, found]⟩
    | some node =>
        obtain rfl := id_of_node? found
        have member := mem_of_node? found
        exact .inr ⟨node, member, rfl, isRoot, wellFormed.removeNode_eq member isRoot⟩

end BusinessProcess.Graph
