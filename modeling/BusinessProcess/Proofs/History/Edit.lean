import BusinessProcess.TimerEvent

/-!
# Histories of a process

A process is worked on by single edits, each of which it may refuse. A ledger keeps the process
together with what has to be remembered of its history: the nodes that removals gave back, which
may be added again, and whether a flow was last added together with its references.
-/

namespace BusinessProcess

/-- A single change of a process. -/
inductive Edit where
  | addNode (parent : ElementId) (node : Node)
  | addFlow (parent : ElementId) (flow : SequenceFlow)
  | addFlowUnlinked (parent : ElementId) (flow : SequenceFlow)
  | removeFlow (id : ElementId)
  | removeNode (id : ElementId)
  | setName (id : ElementId) (name : Option String)
  | setDefinitions (id : ElementId) (definitions : List EventDefinition)
  /-- Changes the attributes of a node or a flow. -/
  | changeAttributes (id : ElementId) (change : Attributes → Attributes)
  /-- Changes the attributes of a node, and of nothing but a node. -/
  | changeNodeAttributes (id : ElementId) (change : Attributes → Attributes)
  | configureTimer (event : ElementId) (field : TimerEvent.Field) (value : Option String)

namespace Edit

/-- The process after an edit. A refused edit leaves it as it was. -/
def run (graph : Graph) : Edit → Graph
  | .addNode parent node => (graph.addNode parent node).toOption.getD graph
  | .addFlow parent flow => (graph.addFlow parent flow).toOption.getD graph
  | .addFlowUnlinked parent flow => (graph.addFlowUnlinked parent flow).toOption.getD graph
  | .removeFlow id => (graph.removeFlow id).2
  | .removeNode id =>
      match graph.removeNode id with
      | .ok (_, left) => left
      | .error _ => graph
  | .setName id name => graph.setName id name
  | .setDefinitions id definitions => graph.setDefinitions id definitions
  | .changeAttributes id change => graph.changeAttributes id change
  | .changeNodeAttributes id change =>
      graph.updateNode id fun node => { node with attributes := change node.attributes }
  | .configureTimer event field value =>
      match TimerEvent.configure graph event field value with
      | .ok (_, changed) => changed
      | .error _ => graph

/-- The node that an edit gives back. -/
def returned? (graph : Graph) : Edit → Option Node
  | .removeNode id =>
      match graph.removeNode id with
      | .ok (removed, _) => removed
      | .error _ => none
  | _ => none

/-- Whether the flow last added under an id was added with its references, after an edit and
given the same before. -/
def linked (graph : Graph) (edit : Edit) (before : ElementId → Bool) (id : ElementId) : Bool :=
  match edit with
  | .addFlow parent flow => before id || ((graph.addFlow parent flow).isOk && id = flow.id)
  | .addFlowUnlinked parent flow =>
      before id && !((graph.addFlowUnlinked parent flow).isOk && id = flow.id)
  | _ => before id

end Edit

/-- A process and what is remembered of its history. -/
structure Ledger where
  graph : Graph
  /-- The nodes that removals gave back, the latest first. -/
  returned : List Node
  /-- Whether the flow last added under an id was added with its references. -/
  linked : ElementId → Bool

namespace Ledger

/-- The ledger of a new process. -/
def new (root : ElementId) : Ledger :=
  ⟨.new root, [], fun _ => false⟩

/-- The ledger after one more edit. -/
def record (ledger : Ledger) (edit : Edit) : Ledger where
  graph := edit.run ledger.graph
  returned := (edit.returned? ledger.graph).toList ++ ledger.returned
  linked := edit.linked ledger.graph ledger.linked

/-- The ledger after several edits. -/
def recordAll (ledger : Ledger) (edits : List Edit) : Ledger :=
  edits.foldl record ledger

/-- The process after several edits is the outcome of running them one after the other. -/
theorem graph_recordAll (ledger : Ledger) (edits : List Edit) :
    (ledger.recordAll edits).graph = edits.foldl Edit.run ledger.graph := by
  induction edits generalizing ledger with
  | nil => rfl
  | cons edit rest inductionHypothesis => exact inductionHypothesis (ledger.record edit)

/-- What each of several edits keeps, they keep together. -/
theorem recordAll_keeps {property : Ledger → Prop} {edits : List Edit}
    (keeps : ∀ ledger, property ledger → ∀ edit ∈ edits, property (ledger.record edit))
    {ledger : Ledger} (holds : property ledger) : property (ledger.recordAll edits) := by
  induction edits generalizing ledger with
  | nil => exact holds
  | cons edit rest inductionHypothesis =>
      refine inductionHypothesis (fun ledger holds other member => ?_)
        (keeps ledger holds edit List.mem_cons_self)
      exact keeps ledger holds other (List.mem_cons_of_mem edit member)

end Ledger

/-! ## What may be added -/

/-- What the nodes and flows that are added may bring along. -/
structure Policy where
  /-- New nodes may come with references. -/
  rawReferences : Bool
  /-- Flows may be added without the references to them. -/
  unlinkedFlows : Bool

/-- A node is another one with a name, definitions and attributes of its own, and with references
of its own if these are allowed. -/
structure Policy.Describes (policy : Policy) (before node : Node) : Prop where
  id : node.id = before.id
  kind : node.kind = before.kind
  parent : node.parent = before.parent
  children : node.children = before.children
  references : policy.rawReferences = false →
    node.incoming = before.incoming ∧ node.outgoing = before.outgoing

/-- A node may be added if it is newly made or was given back by a removal. -/
inductive Policy.Offers (policy : Policy) (ledger : Ledger) (node : Node) : Prop where
  | fresh (id : ElementId) (kind : NodeKind) (described : policy.Describes (.alone id kind) node)
  | returned (before : Node) (member : before ∈ ledger.returned)
      (described : policy.Describes before node)

/-- Whether an edit may be made. -/
def Policy.Allows (policy : Policy) (ledger : Ledger) : Edit → Prop
  | .addNode _ node => policy.Offers ledger node
  | .addFlowUnlinked _ _ => policy.unlinkedFlows = true
  | _ => True

end BusinessProcess
