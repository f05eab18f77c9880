import BusinessProcess.Proofs.Graph.Containment

/-!
# Adding elements to a process

An addition puts an element at the end of what a container lists. It keeps a process well formed
if the id is free, a new node holds nothing yet and a new flow joins nodes of the process.
-/

namespace BusinessProcess.Graph

/-- Ways down stay if every node stays where it is. -/
theorem Within.mono {graph later : Graph} {outer inner : ElementId} {depth : Nat}
    (keeps : ∀ node ∈ graph.nodes, ∃ left ∈ later.nodes,
      left.id = node.id ∧ left.parent = node.parent)
    (within : graph.Within outer depth inner) : later.Within outer depth inner := by
  induction within with
  | here => exact .here
  | inside _ member parent inductionHypothesis =>
      obtain ⟨left, leftMember, sameId, sameParent⟩ := keeps _ member
      rw [← sameId]
      exact .inside inductionHypothesis leftMember (sameParent.trans parent)

/-! ## Adding -/

/-- The process with one more element, which `parent` lists last. -/
def hold (graph : Graph) (parent : ElementId) (element : Element) : Graph :=
  let held := graph.updateNode parent (·.addChild element.id)
  match element with
  | .node node => { held with nodes := held.nodes ++ [node] }
  | .flow flow => { held with flows := held.flows ++ [flow] }

/-- Whether an element of this id may be added to `parent`. -/
structure Vacant (graph : Graph) (parent id : ElementId) : Prop where
  free : id ∉ graph.ids
  container : ∃ node ∈ graph.nodes, node.id = parent ∧ node.kind.isContainer = true

/-- What a new element must bring along: a node holds nothing yet, a flow joins nodes of the
process. -/
def Fits (graph : Graph) : Element → Prop
  | .node node => node.children = []
  | .flow flow => (∃ node ∈ graph.nodes, node.id = flow.source) ∧
      ∃ node ∈ graph.nodes, node.id = flow.target

/-- An addition is checked for a free id and for a container. -/
theorem checkAddition_eq_ok {graph : Graph} {parent id : ElementId} {done : Unit}
    (checked : graph.checkAddition parent id = .ok done) : graph.Vacant parent id := by
  unfold checkAddition at checked
  split at checked
  next => cases checked
  next free =>
    split at checked
    next => cases checked
    next container found =>
      split at checked
      next isContainer =>
        exact ⟨fun used => free (contains_iff.2 used),
          container, mem_of_node? found, id_of_node? found, isContainer⟩
      next => cases checked

/-- A node that was added is held by the parent. -/
theorem addNode_eq_ok {graph added : Graph} {parent : ElementId} {node : Node}
    (done : graph.addNode parent node = .ok added) : graph.Vacant parent node.id ∧
      added = graph.hold parent (.node { node with parent := some parent }) := by
  unfold addNode at done
  split at done
  next => cases done
  next checked =>
    cases done
    exact ⟨checkAddition_eq_ok checked, rfl⟩

/-- A flow that was drawn is held by the parent and joins nodes of the process. -/
theorem addFlowUnlinked_eq_ok {graph added : Graph} {parent : ElementId} {flow : SequenceFlow}
    (done : graph.addFlowUnlinked parent flow = .ok added) : graph.Vacant parent flow.id ∧
      graph.Fits (.flow { flow with parent := some parent }) ∧
      added = graph.hold parent (.flow { flow with parent := some parent }) := by
  unfold addFlowUnlinked at done
  split at done
  next => cases done
  next checked =>
    split at done
    next => cases done
    next source =>
      split at done
      next => cases done
      next target =>
        cases done
        refine ⟨checkAddition_eq_ok checked, ⟨?_, ?_⟩, rfl⟩
        · exact node?_isSome_iff.1 (by simpa [Option.isSome_iff_ne_none] using source)
        · exact node?_isSome_iff.1 (by simpa [Option.isSome_iff_ne_none] using target)

theorem mem_nodes_hold {graph : Graph} {parent : ElementId} {element : Element} {node : Node} :
    node ∈ (graph.hold parent element).nodes ↔ element = .node node ∨ ∃ before ∈ graph.nodes,
      (if before.id = parent then before.addChild element.id else before) = node := by
  cases element with
  | node added =>
      simp only [hold, updateNode, List.mem_append, List.mem_map, List.mem_singleton,
        Element.node.injEq]
      rw [or_comm, eq_comm]
  | flow added => simp [hold, updateNode]

theorem mem_flows_hold {graph : Graph} {parent : ElementId} {element : Element}
    {flow : SequenceFlow} :
    flow ∈ (graph.hold parent element).flows ↔ element = .flow flow ∨ flow ∈ graph.flows := by
  cases element with
  | node added => simp [hold]
  | flow added =>
      simp only [hold, flows_updateNode, List.mem_append, List.mem_singleton, Element.flow.injEq]
      rw [or_comm, eq_comm]

@[simp] theorem root_hold (graph : Graph) (parent : ElementId) (element : Element) :
    (graph.hold parent element).root = graph.root := by
  cases element <;> rfl

/-- The ids in use are those before and the new one. -/
theorem ids_hold (graph : Graph) (parent : ElementId) (element : Element) :
    (graph.hold parent element).ids.Perm (element.id :: graph.ids) := by
  have kept : (graph.updateNode parent (·.addChild element.id)).nodes.map Node.id =
      graph.nodes.map Node.id := by
    simp only [updateNode, List.map_map]
    refine List.map_congr_left fun node _ => ?_
    simp only [Function.comp_apply]
    split <;> rfl
  cases element with
  | node added =>
      simp only [ids, hold, List.map_append, kept, flows_updateNode, List.map_cons, List.map_nil,
        List.append_assoc]
      exact List.perm_middle
  | flow added =>
      simp only [ids, hold, List.map_append, kept, flows_updateNode, List.map_cons, List.map_nil]
      rw [← List.append_assoc]
      exact List.perm_append_singleton _ _

section Hold

variable {graph : Graph} {parent : ElementId} {added : Element}

/-- Every node stays where it is when another element is added. -/
theorem exists_mem_nodes_hold {node : Node} (member : node ∈ graph.nodes) :
    ∃ left ∈ (graph.hold parent added).nodes, left.id = node.id ∧ left.kind = node.kind ∧
      left.parent = node.parent := by
  refine ⟨_, mem_nodes_hold.2 (.inr ⟨node, member, rfl⟩), ?_⟩
  split <;> exact ⟨rfl, rfl, rfl⟩

/-- A node is the added one or was there before. -/
theorem exists_of_mem_nodes_hold {node : Node}
    (member : node ∈ (graph.hold parent added).nodes) :
    added = .node node ∨
      ∃ before ∈ graph.nodes, before.id = node.id ∧ before.kind = node.kind := by
  rcases mem_nodes_hold.1 member with isAdded | ⟨before, present, rfl⟩
  · exact .inl isAdded
  · refine .inr ⟨before, present, ?_⟩
    split <;> exact ⟨rfl, rfl⟩

/-- Every element stays where it is when another one is added. -/
theorem exists_mem_elements_hold {element : Element} (member : element ∈ graph.elements) :
    ∃ left ∈ (graph.hold parent added).elements, left.id = element.id ∧
      left.parent = element.parent := by
  cases element with
  | node node =>
      obtain ⟨left, leftMember, sameId, _, sameParent⟩ :=
        exists_mem_nodes_hold (node_mem_elements.1 member)
      exact ⟨.node left, node_mem_elements.2 leftMember, sameId, sameParent⟩
  | flow flow =>
      exact ⟨.flow flow, flow_mem_elements.2 (mem_flows_hold.2 (.inr (flow_mem_elements.1 member))),
        rfl, rfl⟩

theorem mem_elements_hold_self : added ∈ (graph.hold parent added).elements := by
  cases added with
  | node node => exact node_mem_elements.2 (mem_nodes_hold.2 (.inl rfl))
  | flow flow => exact flow_mem_elements.2 (mem_flows_hold.2 (.inl rfl))

/-- An element is the added one or was there before. -/
theorem exists_of_mem_elements_hold {element : Element}
    (member : element ∈ (graph.hold parent added).elements) :
    element = added ∨ ∃ before ∈ graph.elements, before.id = element.id ∧
      before.parent = element.parent := by
  cases element with
  | node node =>
      rcases mem_nodes_hold.1 (node_mem_elements.1 member) with rfl | ⟨before, present, rfl⟩
      · exact .inl rfl
      · refine .inr ⟨.node before, node_mem_elements.2 present, ?_⟩
        split <;> exact ⟨rfl, rfl⟩
  | flow flow =>
      rcases mem_flows_hold.1 (flow_mem_elements.1 member) with rfl | present
      · exact .inl rfl
      · exact .inr ⟨.flow flow, flow_mem_elements.2 present, rfl, rfl⟩

/-- Adding a fitting element in a vacant place keeps a process well formed. -/
theorem WellFormed.hold (wellFormed : graph.WellFormed) (vacant : graph.Vacant parent added.id)
    (named : added.parent = some parent) (fits : graph.Fits added) :
    (graph.hold parent added).WellFormed where
  distinct := by
    rw [(ids_hold graph parent added).nodup_iff, List.nodup_cons]
    exact ⟨vacant.free, wellFormed.distinct⟩
  joined := by
    have stay : ∀ {id}, (∃ node ∈ graph.nodes, node.id = id) →
        ∃ node ∈ (graph.hold parent added).nodes, node.id = id := by
      rintro id ⟨node, member, rfl⟩
      obtain ⟨left, leftMember, sameId, _⟩ := exists_mem_nodes_hold member
      exact ⟨left, leftMember, sameId⟩
    intro flow member
    rcases mem_flows_hold.1 member with rfl | present
    · exact ⟨stay fits.1, stay fits.2⟩
    · exact ⟨stay (wellFormed.joined flow present).1, stay (wellFormed.joined flow present).2⟩
  rooted := by
    obtain ⟨root, member, rootId, kind, rootParent⟩ := wellFormed.rooted
    obtain ⟨left, leftMember, sameId, sameKind, sameParent⟩ := exists_mem_nodes_hold member
    exact ⟨left, leftMember, by rw [sameId, root_hold, rootId], sameKind.trans kind,
      sameParent.trans rootParent⟩
  held := by
    intro element member other
    rw [root_hold] at other
    rcases exists_of_mem_elements_hold member with rfl | ⟨before, present, sameId, sameParent⟩
    · obtain ⟨container, containerMember, rfl, isContainer⟩ := vacant.container
      refine ⟨container.addChild element.id,
        mem_nodes_hold.2 (.inr ⟨container, containerMember, if_pos rfl⟩), named, isContainer, ?_⟩
      have absent : element.id ∉ container.children := by
        intro isListed
        obtain ⟨old, oldMember, same, _⟩ := wellFormed.listed container containerMember _ isListed
        exact vacant.free (mem_ids.2 ⟨old, oldMember, same⟩)
      simp [Node.addChild, List.count_append, List.count_eq_zero.2 absent]
    · obtain ⟨container, containerMember, holds, isContainer, once⟩ :=
        wellFormed.held before present (by rw [sameId]; exact other)
      have differs : added.id ≠ element.id := by
        intro same
        exact vacant.free (mem_ids.2 ⟨before, present, sameId.trans same.symm⟩)
      refine ⟨_, mem_nodes_hold.2 (.inr ⟨container, containerMember, rfl⟩), ?_, ?_, ?_⟩
      · rw [← sameParent, holds]
        split <;> rfl
      · split <;> exact isContainer
      · rw [sameId] at once
        split
        · simp [Node.addChild, List.count_append, once, differs]
        · exact once
  listed := by
    intro container member child isListed
    have persists : ∀ {container : Node}, container ∈ graph.nodes → child ∈ container.children →
        ∃ element ∈ (graph.hold parent added).elements, element.id = child ∧
          element.parent = some container.id := by
      intro container present isListed
      obtain ⟨element, held, same, holds⟩ := wellFormed.listed container present child isListed
      obtain ⟨left, leftMember, sameId, sameParent⟩ := exists_mem_elements_hold held
      exact ⟨left, leftMember, sameId.trans same, sameParent.trans holds⟩
    rcases mem_nodes_hold.1 member with rfl | ⟨before, present, rfl⟩
    · rw [show container.children = [] from fits] at isListed
      cases isListed
    · by_cases isParent : before.id = parent
      · rw [if_pos isParent] at isListed ⊢
        rcases List.mem_append.1 isListed with wasListed | isNew
        · obtain ⟨element, held, same, holds⟩ := persists present wasListed
          exact ⟨element, held, same, holds⟩
        · refine ⟨added, mem_elements_hold_self, (List.mem_singleton.1 isNew).symm, ?_⟩
          rw [named, ← isParent]
          rfl
      · rw [if_neg isParent] at isListed ⊢
        exact persists present isListed
  grounded := by
    have stay : ∀ node ∈ graph.nodes, ∃ left ∈ (graph.hold parent added).nodes,
        left.id = node.id ∧ left.parent = node.parent := by
      intro node member
      obtain ⟨left, leftMember, sameId, _, sameParent⟩ := exists_mem_nodes_hold member
      exact ⟨left, leftMember, sameId, sameParent⟩
    intro node member
    rw [root_hold]
    rcases mem_nodes_hold.1 member with rfl | ⟨before, present, rfl⟩
    · obtain ⟨container, containerMember, rfl, _⟩ := vacant.container
      obtain ⟨depth, within⟩ := wellFormed.grounded container containerMember
      exact ⟨depth + 1, .inside (within.mono stay) member named⟩
    · obtain ⟨depth, within⟩ := wellFormed.grounded before present
      refine ⟨depth, ?_⟩
      rw [show (if before.id = parent then before.addChild added.id else before).id = before.id by
        split <;> rfl]
      exact within.mono stay

end Hold

theorem WellFormed.addNode {graph added : Graph} (wellFormed : graph.WellFormed)
    {parent : ElementId} {node : Node} (empty : node.children = [])
    (done : graph.addNode parent node = .ok added) : added.WellFormed := by
  obtain ⟨vacant, rfl⟩ := addNode_eq_ok done
  exact wellFormed.hold vacant rfl empty

theorem WellFormed.addFlowUnlinked {graph added : Graph} (wellFormed : graph.WellFormed)
    {parent : ElementId} {flow : SequenceFlow}
    (done : graph.addFlowUnlinked parent flow = .ok added) : added.WellFormed := by
  obtain ⟨vacant, fits, rfl⟩ := addFlowUnlinked_eq_ok done
  exact wellFormed.hold vacant rfl fits

end BusinessProcess.Graph
