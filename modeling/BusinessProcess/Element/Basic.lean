import BusinessProcess.ElementId
import BusinessProcess.Store
import BusinessProcess.Element.Kind
import BusinessProcess.Element.EventDefinition

/-!
# Nodes and sequence flows

The two sorts of elements of a process. A node records where it stands in the containment
tree and which flows it believes to enter and leave it; a flow records its two ends. Both carry
extension attributes in the order in which they were set.
-/

namespace BusinessProcess

/-- Extension attributes, oldest first. -/
abbrev Attributes := Store String String

/-- The value of an attribute that is present and not blank. -/
def Attributes.filled? (attributes : Attributes) (key : String) : Option String :=
  (attributes.get? key).filter fun value => !Text.isBlankText value

/-- A node of a process. A node that is in no process has no parent. -/
structure Node where
  id : ElementId
  kind : NodeKind
  name : Option String
  /-- The container that holds the node. -/
  parent : Option ElementId
  /-- The elements that the node holds, oldest first. -/
  children : List ElementId
  /-- The flows that the node refers to as entering it. -/
  incoming : List ElementId
  /-- The flows that the node refers to as leaving it. -/
  outgoing : List ElementId
  definitions : List EventDefinition
  attributes : Attributes
deriving DecidableEq, Inhabited

namespace Node

/-- A node that stands alone: without name, parent, children, references, definitions and
attributes. -/
def alone (id : ElementId) (kind : NodeKind) : Node where
  id := id
  kind := kind
  name := none
  parent := none
  children := []
  incoming := []
  outgoing := []
  definitions := []
  attributes := .empty

/-- The node with `child` as its last child. -/
def addChild (node : Node) (child : ElementId) : Node :=
  { node with children := node.children ++ [child] }

/-- The node without `child`. -/
def dropChild (node : Node) (child : ElementId) : Node :=
  { node with children := node.children.filter (· ≠ child) }

/-- The node with a reference to `flow` as entering it, made once. -/
def linkIncoming (node : Node) (flow : ElementId) : Node :=
  if flow ∈ node.incoming then node else { node with incoming := node.incoming ++ [flow] }

/-- The node with a reference to `flow` as leaving it, made once. -/
def linkOutgoing (node : Node) (flow : ElementId) : Node :=
  if flow ∈ node.outgoing then node else { node with outgoing := node.outgoing ++ [flow] }

/-- The node without references to `flow`. -/
def unlink (node : Node) (flow : ElementId) : Node :=
  { node with
    incoming := node.incoming.filter (· ≠ flow)
    outgoing := node.outgoing.filter (· ≠ flow) }

/-- The node with `value` under the attribute `key`. -/
def setAttribute (node : Node) (key value : String) : Node :=
  { node with attributes := node.attributes.insert key value }

/-- The node without the attribute `key`. -/
def eraseAttribute (node : Node) (key : String) : Node :=
  { node with attributes := node.attributes.erase key }

end Node

/-- A directed flow between two nodes. -/
structure SequenceFlow where
  id : ElementId
  name : Option String
  source : ElementId
  target : ElementId
  /-- The body of the condition under which the flow is taken. -/
  condition : Option String
  /-- Whether the flow is taken when no condition holds. -/
  isDefault : Bool
  /-- The container that holds the flow. -/
  parent : Option ElementId
  attributes : Attributes
deriving DecidableEq, Inhabited

namespace SequenceFlow

/-- A flow without name, condition, parent and attributes. -/
def between (id source target : ElementId) : SequenceFlow where
  id := id
  name := none
  source := source
  target := target
  condition := none
  isDefault := false
  parent := none
  attributes := .empty

/-- Whether the flow is taken only under some circumstance: it has a condition, or it is taken
when no condition holds. -/
def isGuarded (flow : SequenceFlow) : Bool :=
  flow.condition.isSome || flow.isDefault

/-- The two ends of the flow, joined by an arrow. -/
def display (flow : SequenceFlow) : String :=
  flow.source.text ++ " -> " ++ flow.target.text

end SequenceFlow

/-- A node or a sequence flow. -/
inductive Element where
  | node (node : Node)
  | flow (flow : SequenceFlow)
deriving DecidableEq

namespace Element

/-- The id of the element. -/
def id : Element → ElementId
  | .node vertex => vertex.id
  | .flow edge => edge.id

/-- The name of the element. -/
def name : Element → Option String
  | .node vertex => vertex.name
  | .flow edge => edge.name

/-- The container that holds the element. -/
def parent : Element → Option ElementId
  | .node vertex => vertex.parent
  | .flow edge => edge.parent

/-- The extension attributes of the element. -/
def attributes : Element → Attributes
  | .node vertex => vertex.attributes
  | .flow edge => edge.attributes

/-- Whether the element is a flow. -/
def isFlow : Element → Bool
  | .node _ => false
  | .flow _ => true

end Element

end BusinessProcess
