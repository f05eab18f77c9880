import BusinessProcess.Proofs.Graph.Addition
import BusinessProcess.TimerEvent

/-!
# The shape of a process

Where an element stands and what a flow joins make up the shape of a process. Everything else that
may be said about an element, its name, its references, its definitions and its attributes, has no
part in whether a process is well formed.
-/

namespace BusinessProcess

/-- The node as far as containment goes. -/
def Node.shape (node : Node) : Node :=
  { node with
    name := none, incoming := [], outgoing := [], definitions := [], attributes := .empty }

theorem Node.shape_linkOutgoing (node : Node) (flow : ElementId) :
    (node.linkOutgoing flow).shape = node.shape := by
  unfold Node.linkOutgoing
  split <;> rfl

theorem Node.shape_linkIncoming (node : Node) (flow : ElementId) :
    (node.linkIncoming flow).shape = node.shape := by
  unfold Node.linkIncoming
  split <;> rfl

/-- The flow as far as containment and its ends go. -/
def SequenceFlow.shape (flow : SequenceFlow) : SequenceFlow :=
  { flow with name := none, condition := none, isDefault := false, attributes := .empty }

/-- Nodes of the same shape hold the same place. -/
structure Node.Alike (first second : Node) : Prop where
  id : first.id = second.id
  kind : first.kind = second.kind
  parent : first.parent = second.parent
  children : first.children = second.children

/-- Flows of the same shape hold the same place and have the same ends. -/
structure SequenceFlow.Alike (first second : SequenceFlow) : Prop where
  id : first.id = second.id
  source : first.source = second.source
  target : first.target = second.target
  parent : first.parent = second.parent

theorem Node.alike_of_shape {first second : Node} (same : first.shape = second.shape) :
    first.Alike second where
  id := (congrArg Node.id same :)
  kind := (congrArg Node.kind same :)
  parent := (congrArg Node.parent same :)
  children := (congrArg Node.children same :)

theorem SequenceFlow.alike_of_shape {first second : SequenceFlow}
    (same : first.shape = second.shape) : first.Alike second where
  id := (congrArg SequenceFlow.id same :)
  source := (congrArg SequenceFlow.source same :)
  target := (congrArg SequenceFlow.target same :)
  parent := (congrArg SequenceFlow.parent same :)

@[simp] theorem Node.id_linkOutgoing (node : Node) (flow : ElementId) :
    (node.linkOutgoing flow).id = node.id :=
  (alike_of_shape (node.shape_linkOutgoing flow)).id

@[simp] theorem Node.id_linkIncoming (node : Node) (flow : ElementId) :
    (node.linkIncoming flow).id = node.id :=
  (alike_of_shape (node.shape_linkIncoming flow)).id

namespace Graph

/-- Two processes differ at most in how their elements are described. -/
structure SameShape (graph other : Graph) : Prop where
  root : other.root = graph.root
  nodes : other.nodes.map Node.shape = graph.nodes.map Node.shape
  flows : other.flows.map SequenceFlow.shape = graph.flows.map SequenceFlow.shape

namespace SameShape

variable {graph other : Graph}

theorem symm (same : graph.SameShape other) : other.SameShape graph :=
  ⟨same.root.symm, same.nodes.symm, same.flows.symm⟩

/-- Each node has a counterpart in the same place. -/
theorem exists_node (same : graph.SameShape other) {node : Node} (member : node ∈ graph.nodes) :
    ∃ left ∈ other.nodes, left.Alike node := by
  have shaped : node.shape ∈ other.nodes.map Node.shape := by
    rw [same.nodes]
    exact List.mem_map_of_mem member
  obtain ⟨left, leftMember, shape⟩ := List.mem_map.1 shaped
  exact ⟨left, leftMember, Node.alike_of_shape shape⟩

/-- Each flow has a counterpart in the same place. -/
theorem exists_flow (same : graph.SameShape other) {flow : SequenceFlow}
    (member : flow ∈ graph.flows) : ∃ left ∈ other.flows, left.Alike flow := by
  have shaped : flow.shape ∈ other.flows.map SequenceFlow.shape := by
    rw [same.flows]
    exact List.mem_map_of_mem member
  obtain ⟨left, leftMember, shape⟩ := List.mem_map.1 shaped
  exact ⟨left, leftMember, SequenceFlow.alike_of_shape shape⟩

/-- Each element has a counterpart in the same place. -/
theorem exists_element (same : graph.SameShape other) {element : Element}
    (member : element ∈ graph.elements) :
    ∃ left ∈ other.elements, left.id = element.id ∧ left.parent = element.parent := by
  cases element with
  | node node =>
      obtain ⟨left, leftMember, alike⟩ := same.exists_node (node_mem_elements.1 member)
      exact ⟨.node left, node_mem_elements.2 leftMember, alike.id, alike.parent⟩
  | flow flow =>
      obtain ⟨left, leftMember, alike⟩ := same.exists_flow (flow_mem_elements.1 member)
      exact ⟨.flow left, flow_mem_elements.2 leftMember, alike.id, alike.parent⟩

theorem ids_eq (same : graph.SameShape other) : other.ids = graph.ids := by
  have nodeIds := congrArg (List.map Node.id) same.nodes
  have flowIds := congrArg (List.map SequenceFlow.id) same.flows
  rw [List.map_map, List.map_map] at nodeIds flowIds
  exact congrArg₂ (· ++ ·) nodeIds flowIds

end SameShape

/-- How elements are described has no part in whether a process is well formed. -/
theorem WellFormed.of_sameShape {graph other : Graph} (wellFormed : graph.WellFormed)
    (same : graph.SameShape other) : other.WellFormed where
  distinct := by
    rw [same.ids_eq]
    exact wellFormed.distinct
  joined := by
    have stay : ∀ {id}, (∃ node ∈ graph.nodes, node.id = id) →
        ∃ node ∈ other.nodes, node.id = id := by
      rintro id ⟨node, member, rfl⟩
      obtain ⟨left, leftMember, alike⟩ := same.exists_node member
      exact ⟨left, leftMember, alike.id⟩
    intro flow member
    obtain ⟨before, present, alike⟩ := same.symm.exists_flow member
    rw [← alike.source, ← alike.target]
    exact ⟨stay (wellFormed.joined before present).1, stay (wellFormed.joined before present).2⟩
  rooted := by
    obtain ⟨root, member, rootId, kind, parent⟩ := wellFormed.rooted
    obtain ⟨left, leftMember, alike⟩ := same.exists_node member
    refine ⟨left, leftMember, ?_, alike.kind.trans kind, alike.parent.trans parent⟩
    rw [same.root, ← rootId]
    exact alike.id
  held := by
    intro element member notRoot
    obtain ⟨before, present, sameId, sameParent⟩ := same.symm.exists_element member
    obtain ⟨container, containerMember, named, isContainer, once⟩ :=
      wellFormed.held before present (by rw [sameId, ← same.root]; exact notRoot)
    obtain ⟨left, leftMember, alike⟩ := same.exists_node containerMember
    exact ⟨left, leftMember, by rw [← sameParent, named, alike.id],
      by rw [alike.kind, isContainer], by rw [alike.children, ← sameId, once]⟩
  listed := by
    intro container member child isListed
    obtain ⟨before, present, alike⟩ := same.symm.exists_node member
    obtain ⟨element, held, rfl, named⟩ :=
      wellFormed.listed before present child (by rw [alike.children]; exact isListed)
    obtain ⟨left, leftMember, leftId, leftParent⟩ := same.exists_element held
    exact ⟨left, leftMember, leftId, by rw [leftParent, named, alike.id]⟩
  grounded := by
    have stay : ∀ node ∈ graph.nodes, ∃ left ∈ other.nodes,
        left.id = node.id ∧ left.parent = node.parent := by
      intro node member
      obtain ⟨left, leftMember, alike⟩ := same.exists_node member
      exact ⟨left, leftMember, alike.id, alike.parent⟩
    intro node member
    obtain ⟨before, present, alike⟩ := same.symm.exists_node member
    obtain ⟨depth, within⟩ := wellFormed.grounded before present
    refine ⟨depth, ?_⟩
    rw [same.root, ← alike.id]
    exact within.mono stay

/-- A change that only describes a node keeps the shape of the process. -/
theorem sameShape_updateNode (graph : Graph) (id : ElementId) {change : Node → Node}
    (keeps : ∀ node, (change node).shape = node.shape) :
    graph.SameShape (graph.updateNode id change) where
  root := rfl
  nodes := by
    simp only [updateNode, List.map_map]
    refine List.map_congr_left fun node _ => ?_
    rw [Function.comp_apply, apply_ite Node.shape, keeps, ite_self]
  flows := rfl

/-- A change that only describes a flow keeps the shape of the process. -/
theorem sameShape_updateFlow (graph : Graph) (id : ElementId)
    {change : SequenceFlow → SequenceFlow} (keeps : ∀ flow, (change flow).shape = flow.shape) :
    graph.SameShape (graph.updateFlow id change) where
  root := rfl
  nodes := rfl
  flows := by
    simp only [updateFlow, List.map_map]
    refine List.map_congr_left fun flow _ => ?_
    rw [Function.comp_apply, apply_ite SequenceFlow.shape, keeps, ite_self]

theorem sameShape_changeAttributes (graph : Graph) (id : ElementId)
    (change : Attributes → Attributes) : graph.SameShape (graph.changeAttributes id change) := by
  unfold changeAttributes
  split
  next => exact sameShape_updateNode graph id fun _ => rfl
  next => exact sameShape_updateFlow graph id fun _ => rfl
  next => exact ⟨rfl, rfl, rfl⟩

/-- Configuring a timer event describes a single node. -/
theorem configure_eq_ok {graph changed : Graph} {event : ElementId} {field : TimerEvent.Field}
    {value : Option String} {expression : Option TimerExpression}
    (done : TimerEvent.configure graph event field value = .ok (expression, changed)) :
    ∃ attributes definitions, changed = graph.updateNode event fun node =>
      { node with attributes := attributes, definitions := definitions } := by
  unfold TimerEvent.configure at done
  split at done
  next => cases done
  next =>
    split at done
    next => cases done
    next =>
      split at done
      next => cases done
      next =>
        obtain ⟨_, rfl⟩ := Prod.mk.inj (Except.ok.inj done)
        exact ⟨_, _, rfl⟩

/-- A flow that was added with its references was drawn and then linked at its two ends. -/
theorem addFlow_eq_ok {graph added : Graph} {parent : ElementId} {flow : SequenceFlow}
    (done : graph.addFlow parent flow = .ok added) : ∃ drawn,
      graph.addFlowUnlinked parent flow = .ok drawn ∧
      added = (drawn.updateNode flow.source (·.linkOutgoing flow.id)).updateNode flow.target
        (·.linkIncoming flow.id) := by
  unfold addFlow at done
  split at done
  next => cases done
  next drawn isDrawn =>
    cases done
    exact ⟨drawn, isDrawn, rfl⟩

theorem WellFormed.addFlow {graph added : Graph} (wellFormed : graph.WellFormed)
    {parent : ElementId} {flow : SequenceFlow} (done : graph.addFlow parent flow = .ok added) :
    added.WellFormed := by
  obtain ⟨drawn, isDrawn, rfl⟩ := addFlow_eq_ok done
  have first := (wellFormed.addFlowUnlinked isDrawn).of_sameShape
    (sameShape_updateNode drawn flow.source fun node => node.shape_linkOutgoing flow.id)
  exact first.of_sameShape
    (sameShape_updateNode _ flow.target fun node => node.shape_linkIncoming flow.id)

/-- Adding a flow does not change which node is the root. -/
theorem root_addFlow {graph added : Graph} {parent : ElementId} {flow : SequenceFlow}
    (done : graph.addFlow parent flow = .ok added) : added.root = graph.root := by
  obtain ⟨drawn, isDrawn, rfl⟩ := addFlow_eq_ok done
  rw [root_updateNode, root_updateNode, (addFlowUnlinked_eq_ok isDrawn).2.2, root_hold]

end Graph

end BusinessProcess
