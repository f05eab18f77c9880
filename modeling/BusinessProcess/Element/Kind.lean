/-!
# Kinds of nodes

Each node of a process has exactly one kind. The kind decides whether a node holds other
elements, takes part in the sequence flow, or may carry time limits, and it names the node in
findings.
-/

namespace BusinessProcess

/-- How the work of a task is done. -/
inductive TaskKind where
  | plain
  | user
  | service
  | script
  | manual
  | send
  | receive
  | businessRule
deriving DecidableEq, Repr, Inhabited

/-- How a gateway routes. -/
inductive GatewayKind where
  | exclusive
  | parallel
  | inclusive
  | complex
  | eventBased
deriving DecidableEq, Repr, Inhabited

/-- Where in the flow an event occurs. A boundary event is attached to an activity. -/
inductive EventKind where
  | start
  | finish
  | intermediateCatch
  | intermediateThrow
  | boundary
deriving DecidableEq, Repr, Inhabited

/-- What a node is. A sub-process may be triggered by an event instead of by a flow. -/
inductive NodeKind where
  | process
  | subProcess (eventTriggered : Bool)
  | task (kind : TaskKind)
  | callActivity
  | gateway (kind : GatewayKind)
  | event (kind : EventKind)
  | participant
  | lane
  | dataObject
  | textNote
deriving DecidableEq, Repr, Inhabited

/-- The name of a task kind in process documents. -/
def TaskKind.name : TaskKind → String
  | .plain => "Task"
  | .user => "UserTask"
  | .service => "ServiceTask"
  | .script => "ScriptTask"
  | .manual => "ManualTask"
  | .send => "SendTask"
  | .receive => "ReceiveTask"
  | .businessRule => "BusinessRuleTask"

/-- The name of a gateway kind in process documents. -/
def GatewayKind.name : GatewayKind → String
  | .exclusive => "ExclusiveGateway"
  | .parallel => "ParallelGateway"
  | .inclusive => "InclusiveGateway"
  | .complex => "ComplexGateway"
  | .eventBased => "EventBasedGateway"

/-- The name of an event kind in process documents. -/
def EventKind.name : EventKind → String
  | .start => "StartEvent"
  | .finish => "EndEvent"
  | .intermediateCatch => "IntermediateCatchEvent"
  | .intermediateThrow => "IntermediateThrowEvent"
  | .boundary => "BoundaryEvent"

namespace NodeKind

/-- The name of a node kind in process documents, without its namespace. -/
def name : NodeKind → String
  | .process => "Process"
  | .subProcess _ => "SubProcess"
  | .task kind => kind.name
  | .callActivity => "CallActivity"
  | .gateway kind => kind.name
  | .event kind => kind.name
  | .participant => "Participant"
  | .lane => "Lane"
  | .dataObject => "DataObjectReference"
  | .textNote => "TextAnnotation"

/-- The name of a node kind with its namespace. -/
def label (kind : NodeKind) : String :=
  "bpmn:" ++ kind.name

/-- Processes and sub-processes hold other elements. -/
def isContainer : NodeKind → Bool
  | .process | .subProcess _ => true
  | _ => false

/-- Nodes that sequence flows may enter or leave. -/
def isFlowNode : NodeKind → Bool
  | .subProcess _ | .task _ | .callActivity | .gateway _ | .event _ => true
  | _ => false

/-- Nodes that boundary events may be attached to. -/
def isActivity : NodeKind → Bool
  | .subProcess _ | .task _ | .callActivity => true
  | _ => false

/-- Whether the node is a task of any kind. -/
def isTask : NodeKind → Bool
  | .task _ => true
  | _ => false

/-- Whether the node is an event of any kind. -/
def isEvent : NodeKind → Bool
  | .event _ => true
  | _ => false

/-- Whether the node is a gateway of any kind. -/
def isGateway : NodeKind → Bool
  | .gateway _ => true
  | _ => false

/-- Whether the node is a sub-process triggered by an event. -/
def isEventSubProcess : NodeKind → Bool
  | .subProcess eventTriggered => eventTriggered
  | _ => false

end NodeKind

end BusinessProcess
