import BusinessProcess.Graph.Basic

/-!
# Changing a process graph

Adding, removing and editing elements. An addition is checked completely before anything is
changed, so a refused one leaves the graph as it was. Removing a node removes all that it
contains and every flow that touches any of it; removing a flow removes the references its two ends
and its container have to it.
-/

namespace BusinessProcess.Graph

/-- The graph in which the node with the given id is what `change` makes of it. -/
def updateNode (graph : Graph) (id : ElementId) (change : Node → Node) : Graph :=
  { graph with
    nodes := graph.nodes.map fun node => if node.id = id then change node else node }

/-- The graph in which the flow with the given id is what `change` makes of it. -/
def updateFlow (graph : Graph) (id : ElementId) (change : SequenceFlow → SequenceFlow) : Graph :=
  { graph with
    flows := graph.flows.map fun flow => if flow.id = id then change flow else flow }

/-- The graph in which the node with the given id, if an id is given, is what `change` makes of
it. -/
def updateParent (graph : Graph) (id : Option ElementId) (change : Node → Node) : Graph :=
  match id with
  | some id => graph.updateNode id change
  | none => graph

/-- The graph in which the node with the given id has the name `name`, or none. -/
def setName (graph : Graph) (id : ElementId) (name : Option String) : Graph :=
  graph.updateNode id fun node => { node with name := name }

/-- The graph in which the node with the given id has the given event definitions. -/
def setDefinitions (graph : Graph) (id : ElementId) (definitions : List EventDefinition) : Graph :=
  graph.updateNode id fun node => { node with definitions := definitions }

/-- The graph in which the element with the given id, a node or a flow, carries what `change`
makes of its attributes. -/
def changeAttributes (graph : Graph) (id : ElementId) (change : Attributes → Attributes) : Graph :=
  match graph.element? id with
  | some (.node _) =>
      graph.updateNode id fun node => { node with attributes := change node.attributes }
  | some (.flow _) =>
      graph.updateFlow id fun flow => { flow with attributes := change flow.attributes }
  | none => graph

/-- The attributes of the element with the given id, if it is in the graph. -/
def attributes? (graph : Graph) (id : ElementId) : Option Attributes :=
  (graph.element? id).map Element.attributes

/-- Whether an element with the id `id` may be added to `parent`: the id is free and the parent
is a container of the graph. -/
def checkAddition (graph : Graph) (parent id : ElementId) : Except GraphError Unit :=
  if graph.contains id then .error (.duplicateId id)
  else
    match graph.node? parent with
    | none => .error (.unknownNode parent)
    | some container =>
        if container.kind.isContainer then .ok () else .error (.notContainer parent)

/-- Adds a node as the last child of `parent`. -/
def addNode (graph : Graph) (parent : ElementId) (node : Node) : Except GraphError Graph :=
  match graph.checkAddition parent node.id with
  | .error error => .error error
  | .ok () =>
      let held := graph.updateNode parent (·.addChild node.id)
      .ok { held with nodes := held.nodes ++ [{ node with parent := some parent }] }

/-- Adds a flow as the last child of `parent` and leaves the references of its two ends as they
are. Documents that omit the references take this shape. -/
def addFlowUnlinked (graph : Graph) (parent : ElementId) (flow : SequenceFlow) :
    Except GraphError Graph :=
  match graph.checkAddition parent flow.id with
  | .error error => .error error
  | .ok () =>
      if (graph.node? flow.source).isNone then .error (.unknownNode flow.source)
      else if (graph.node? flow.target).isNone then .error (.unknownNode flow.target)
      else
        let held := graph.updateNode parent (·.addChild flow.id)
        .ok { held with flows := held.flows ++ [{ flow with parent := some parent }] }

/-- Adds a flow as the last child of `parent` and makes its two ends refer to it. -/
def addFlow (graph : Graph) (parent : ElementId) (flow : SequenceFlow) :
    Except GraphError Graph :=
  match graph.addFlowUnlinked parent flow with
  | .error error => .error error
  | .ok drawn =>
      .ok ((drawn.updateNode flow.source (·.linkOutgoing flow.id)).updateNode flow.target
        (·.linkIncoming flow.id))

/-- Removes a flow and every reference that its ends and its parent have to it. Says which flow
was removed, if there was one. -/
def removeFlow (graph : Graph) (id : ElementId) : Option SequenceFlow × Graph :=
  match graph.flow? id with
  | none => (none, graph)
  | some flow =>
      let erased := { graph with flows := graph.flows.filter fun other => other.id ≠ id }
      let unlinked :=
        (erased.updateNode flow.source (·.unlink id)).updateNode flow.target (·.unlink id)
      (some flow, unlinked.updateParent flow.parent (·.dropChild id))

/-- Removes several flows, one after the other. -/
def removeFlows (graph : Graph) (ids : List ElementId) : Graph :=
  ids.foldl (fun graph id => (graph.removeFlow id).2) graph

/-- Takes a single node out of the graph and off the list of its parent. Says which node was
taken out, if there was one. -/
def detachNode (graph : Graph) (id : ElementId) : Option Node × Graph :=
  match graph.node? id with
  | none => (none, graph)
  | some node =>
      let erased := { graph with nodes := graph.nodes.filter fun other => other.id ≠ id }
      (some node, erased.updateParent node.parent (·.dropChild id))

/-- A node and all nodes below it, down to `depth` levels: a container before its children, and
these in the order in which it lists them. -/
def nodesBelow (graph : Graph) : (depth : Nat) → (id : ElementId) → List ElementId
  | 0, id => [id]
  | depth + 1, id =>
      id :: (graph.childNodes id).flatMap fun child => graph.nodesBelow depth child.id

/-- A node and all nodes that it contains. No nesting is deeper than the number of nodes. -/
def subtree (graph : Graph) (id : ElementId) : List ElementId :=
  graph.nodesBelow graph.nodes.length id

/-- Whether a flow starts, ends or lies in one of the given nodes. -/
def touches (ids : List ElementId) (flow : SequenceFlow) : Bool :=
  ids.contains flow.source || ids.contains flow.target
    || flow.parent.any fun parent => ids.contains parent

/-- Removes a node, all nodes that it contains and every flow that touches any of them. Says
which node was removed, if there was one, as it was without the removed elements. -/
def removeNode (graph : Graph) (id : ElementId) :
    Except GraphError (Option Node × Graph) :=
  if id = graph.root then .error (.rootRemoval id)
  else
    match graph.node? id with
    | none => .ok (none, graph)
    | some _ =>
        let doomed := graph.subtree id
        let doomedFlows := (graph.flows.filter (touches doomed)).map SequenceFlow.id
        let cleared := graph.removeFlows doomedFlows
        let emptied := doomed.tail.reverse.foldl (fun graph id => (graph.detachNode id).2) cleared
        .ok (emptied.detachNode id)

/-- Changing a node that is not in the graph changes nothing. -/
theorem updateNode_of_node?_eq_none {graph : Graph} {id : ElementId} {change : Node → Node}
    (absent : graph.node? id = none) : graph.updateNode id change = graph := by
  have same : graph.nodes.map (fun node => if node.id = id then change node else node)
      = graph.nodes.map fun node => node :=
    List.map_congr_left fun node member => by
      have differs := List.find?_eq_none.1 absent node member
      simp only [decide_eq_true_eq] at differs
      rw [if_neg differs]
  simp [updateNode, same]

/-- Changing a node does not change which flows there are. -/
@[simp] theorem flows_updateNode (graph : Graph) (id : ElementId) (change : Node → Node) :
    (graph.updateNode id change).flows = graph.flows :=
  rfl

/-- Changing a node does not change which node is the root. -/
@[simp] theorem root_updateNode (graph : Graph) (id : ElementId) (change : Node → Node) :
    (graph.updateNode id change).root = graph.root :=
  rfl

/-- A change that keeps ids is seen under the id of the changed node and nowhere else. -/
theorem node?_updateNode (graph : Graph) (id other : ElementId) {change : Node → Node}
    (keeps : ∀ node, (change node).id = node.id) :
    (graph.updateNode id change).node? other =
      if other = id then (graph.node? other).map change else graph.node? other := by
  unfold node? updateNode
  induction graph.nodes with
  | nil => split <;> rfl
  | cons head rest inductionHypothesis =>
      rw [List.map_cons, List.find?_cons, List.find?_cons]
      by_cases changed : head.id = id <;> by_cases found : head.id = other
      · have same : other = id := found.symm.trans changed
        simp only [changed, same, keeps, if_true, decide_true, Option.map_some]
      · simp only [if_pos changed, keeps, found, decide_false, inductionHypothesis]
      · have differs : other ≠ id := fun same => changed (found.trans same)
        simp only [if_neg differs, found, decide_true]
      · simp only [if_neg changed, found, decide_false, inductionHypothesis]

end BusinessProcess.Graph
