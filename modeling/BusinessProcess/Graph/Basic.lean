import BusinessProcess.Element.Basic

/-!
# Process graphs

A process graph holds the nodes and the sequence flows of one process, each in the order in
which they were added. Containment is recorded on the elements: a container lists its children
and every element but the root names its parent.

Two views of the flow live side by side. The *references* of a node are the flows that it claims
to have, which may be out of date; the *drawn* flows are those that the graph holds.
-/

namespace BusinessProcess

/-- A process: a root node, all nodes and all sequence flows, oldest first. -/
structure Graph where
  root : ElementId
  nodes : List Node
  flows : List SequenceFlow
deriving DecidableEq, Inhabited

/-- Why a process cannot be changed or read as asked. -/
inductive GraphError where
  /-- Another element has the id. -/
  | duplicateId (id : ElementId)
  /-- No node has the id. -/
  | unknownNode (id : ElementId)
  /-- The node holds no other elements. -/
  | notContainer (id : ElementId)
  /-- The root stays as long as the process does. -/
  | rootRemoval (id : ElementId)
  /-- The node refers to a flow that the process does not hold. -/
  | unresolvedFlow (node flow : ElementId)
deriving DecidableEq, Repr

/-- The wording of a graph error. -/
def GraphError.message : GraphError → String
  | .duplicateId id => "an element with id `" ++ id.text ++ "` already exists"
  | .unknownNode id => "unknown node `" ++ id.text ++ "`"
  | .notContainer id => "node `" ++ id.text ++ "` cannot contain other elements"
  | .rootRemoval id => "the root `" ++ id.text ++ "` cannot be removed"
  | .unresolvedFlow node flow =>
      "node `" ++ node.text ++ "` references unknown flow `" ++ flow.text ++ "`"

namespace Graph

/-- The process that holds nothing but its root. -/
def new (root : ElementId) : Graph where
  root := root
  nodes := [.alone root .process]
  flows := []

/-- The node with the given id. -/
def node? (graph : Graph) (id : ElementId) : Option Node :=
  graph.nodes.find? fun node => node.id = id

/-- The flow with the given id. -/
def flow? (graph : Graph) (id : ElementId) : Option SequenceFlow :=
  graph.flows.find? fun flow => flow.id = id

/-- The element with the given id. -/
def element? (graph : Graph) (id : ElementId) : Option Element :=
  match graph.node? id with
  | some node => some (.node node)
  | none => (graph.flow? id).map .flow

/-- Whether a node or a flow has the given id. -/
def contains (graph : Graph) (id : ElementId) : Bool :=
  (graph.node? id).isSome || (graph.flow? id).isSome

/-- The elements that a node holds, in the order in which it lists them. -/
def children (graph : Graph) (id : ElementId) : List Element :=
  match graph.node? id with
  | some node => node.children.filterMap graph.element?
  | none => []

/-- The nodes that a node holds, in the order in which it lists them. -/
def childNodes (graph : Graph) (id : ElementId) : List Node :=
  (graph.children id).filterMap fun
    | .node node => some node
    | .flow _ => none

/-- The containers met on the way up from `parent`, at most `height` of them. -/
def containersFrom (graph : Graph) : (height : Nat) → (parent : Option ElementId) → List Node
  | 0, _ => []
  | _, none => []
  | height + 1, some id =>
      match graph.node? id with
      | some node => node :: graph.containersFrom height node.parent
      | none => []

/-- The containers around an element, innermost first. No way up is longer than the number of
nodes. -/
def ancestors (graph : Graph) (id : ElementId) : List Node :=
  match graph.element? id with
  | some element => graph.containersFrom graph.nodes.length element.parent
  | none => []

/-- The flows that a list of references stands for, or the first reference of `node` that stands
for none. -/
def resolve (graph : Graph) (node : ElementId) :
    List ElementId → Except GraphError (List SequenceFlow)
  | [] => .ok []
  | reference :: rest =>
      match graph.flow? reference with
      | none => .error (.unresolvedFlow node reference)
      | some flow =>
          match graph.resolve node rest with
          | .ok flows => .ok (flow :: flows)
          | .error error => .error error

/-- The flows that a node refers to as entering it. -/
def incoming (graph : Graph) (id : ElementId) : Except GraphError (List SequenceFlow) :=
  match graph.node? id with
  | some node => graph.resolve id node.incoming
  | none => .error (.unknownNode id)

/-- The flows that a node refers to as leaving it. -/
def outgoing (graph : Graph) (id : ElementId) : Except GraphError (List SequenceFlow) :=
  match graph.node? id with
  | some node => graph.resolve id node.outgoing
  | none => .error (.unknownNode id)

/-- The drawn flows that enter a node. -/
def flowsInto (graph : Graph) (id : ElementId) : List SequenceFlow :=
  graph.flows.filter fun flow => flow.target = id

/-- The drawn flows that leave a node. -/
def flowsFrom (graph : Graph) (id : ElementId) : List SequenceFlow :=
  graph.flows.filter fun flow => flow.source = id

/-- Checks whether `candidate` can become the id of `renamed`, or of a new element if there is
no such element. -/
def checkId (graph : Graph) (candidate : String) (renamed : Option ElementId) :
    Except ElementId.Flaw Unit :=
  if candidate.isEmpty then .error .notUnique
  else if graph.contains ⟨candidate⟩ && renamed ≠ some ⟨candidate⟩ then .error .notUnique
  else ElementId.checkForm candidate

/-- What is found under an id has that id. -/
theorem id_of_node? {graph : Graph} {id : ElementId} {node : Node}
    (found : graph.node? id = some node) : node.id = id := by
  simpa using List.find?_some found

/-- What is found under an id has that id. -/
theorem id_of_flow? {graph : Graph} {id : ElementId} {flow : SequenceFlow}
    (found : graph.flow? id = some flow) : flow.id = id := by
  simpa using List.find?_some found

end Graph

end BusinessProcess
