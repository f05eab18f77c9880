import BusinessProcess.Lint.Rule.Basic

/-!
# Rules about scopes

A scope is a process or a sub-process with the nodes directly in it. These rules ask for its
start and end events and for what triggers them.
-/

namespace BusinessProcess.Lint.Rule

/-- What a container is called in remarks. -/
def scopeName : NodeKind → String
  | .subProcess _ => "Sub process"
  | _ => "Process"

/-- Whether a node is a start event. -/
def isStart (node : Node) : Bool :=
  node.kind = .event .start

/-- Whether a node is an end event. -/
def isEnd (node : Node) : Bool :=
  node.kind = .event .finish

/-- Whether a node is a start event that does not say what triggers it. -/
def isBlankStart (node : Node) : Bool :=
  isStart node && node.definitions.isEmpty

/-- Whether a node is a start event that says what triggers it. -/
def isTypedStart (node : Node) : Bool :=
  isStart node && !node.definitions.isEmpty

/-- Every scope has an end event. -/
def endEventRequired : Rule :=
  ofNodeCheck "end-event-required" .missingEndEvent fun graph node =>
    remarkIf (node.kind.isContainer && !(graph.childNodes node.id).any isEnd) node
      (scopeName node.kind ++ " is missing end event")

/-- Every scope has a start event. -/
def startEventRequired : Rule :=
  ofNodeCheck "start-event-required" .missingStartEvent fun graph node =>
    remarkIf (node.kind.isContainer && !(graph.childNodes node.id).any isStart) node
      (scopeName node.kind ++ " is missing start event")

/-- The start events of an event sub-process say what triggers them. -/
def eventSubProcessTypedStartEvent : Rule :=
  ofNodeCheck "event-sub-process-typed-start-event" .untypedStartEvent fun graph node =>
    if node.kind = .subProcess true then
      ((graph.childNodes node.id).filter isBlankStart).map fun start =>
        ⟨start.id, "Start event is missing event definition"⟩
    else []

/-- The start events of a plain sub-process are blank. -/
def subProcessBlankStartEvent : Rule :=
  ofNodeCheck "sub-process-blank-start-event" .typedStartEvent fun graph node =>
    if node.kind = .subProcess false then
      ((graph.childNodes node.id).filter isTypedStart).map fun start =>
        ⟨start.id, "Start event must be blank"⟩
    else []

/-- A scope has at most one blank start event. -/
def singleBlankStartEvent : Rule :=
  ofNodeCheck "single-blank-start-event" .multipleBlankStarts fun graph node =>
    remarkIf (node.kind.isContainer && (graph.childNodes node.id).countP isBlankStart > 1) node
      (scopeName node.kind ++ " has multiple blank start events")

/-- An event has at most one definition. -/
def singleEventDefinition : Rule :=
  ofNodeCheck "single-event-definition" .multipleDefinitions fun _ node =>
    remarkIf (node.kind.isEvent && node.definitions.length > 1) node
      "Event has multiple event definitions"

end BusinessProcess.Lint.Rule
