import BusinessProcess.Lint.Rule.Basic
import BusinessProcess.Text.Blank

/-!
# The rule about connections

Nodes that structure the flow need a flow on either side. A flow counts if it is drawn or if the
node refers to it, because documents often omit the references. Event sub-processes and all
inside them are exempt.
-/

namespace BusinessProcess.Lint.Rule

/-- Whether a node needs a flow on either side. -/
def isStructural (kind : NodeKind) : Bool :=
  match kind with
  | .task .user | .callActivity | .subProcess _ => true
  | .gateway .exclusive | .gateway .parallel | .gateway .inclusive => true
  | _ => false

/-- Whether a node is an event sub-process or inside one. -/
def inEventScope (graph : Graph) (node : Node) : Bool :=
  node.kind.isEventSubProcess
    || (graph.ancestors node.id).any fun ancestor => ancestor.kind.isEventSubProcess

/-- Whether a flow enters a node, be it drawn or referred to. -/
def isEntered (graph : Graph) (node : Node) : Bool :=
  (node.incoming.any fun flow => (graph.flow? flow).isSome)
    || !(graph.flowsInto node.id).isEmpty

/-- Whether a flow leaves a node, be it drawn or referred to. -/
def isLeft (graph : Graph) (node : Node) : Bool :=
  (node.outgoing.any fun flow => (graph.flow? flow).isSome)
    || !(graph.flowsFrom node.id).isEmpty

/-- A remark introduced by the kind of a node and, if it has one, its trimmed name. -/
def introduce (node : Node) (message : String) : String :=
  match Text.entered? node.name with
  | some name => node.kind.name ++ " " ++ name ++ ": " ++ message
  | none => node.kind.name ++ ": " ++ message

/-- Nodes that structure the flow have a flow on either side. -/
def noDisconnected : Rule :=
  ofNodeCheck "no-disconnected" .disconnected fun graph node =>
    if isStructural node.kind && !inEventScope graph node then
      remarkIf (!isEntered graph node) node (introduce node "Element is not left connected")
        ++ remarkIf (!isLeft graph node) node (introduce node "Element is not right connected")
    else []

end BusinessProcess.Lint.Rule
