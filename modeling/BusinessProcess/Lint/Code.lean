/-!
# Codes of findings

Every finding carries a code for what is wrong. The codes are grouped by concern: scopes,
sequence flows, gateways, labels and connections, required fields of tasks, and faults of the
rules themselves.
-/

namespace BusinessProcess.Lint

/-- What a finding is about. -/
inductive Code where
  /-- A scope has no end event. -/
  | missingEndEvent
  /-- A scope has no start event. -/
  | missingStartEvent
  /-- A start event of an event sub-process does not say what triggers it. -/
  | untypedStartEvent
  /-- A start event of a plain sub-process says what triggers it. -/
  | typedStartEvent
  /-- A scope has more than one blank start event. -/
  | multipleBlankStarts
  /-- An event has more than one definition. -/
  | multipleDefinitions
  /-- A node forks on conditions and one of its flows has none. -/
  | missingCondition
  /-- Flows meet in a task or event. -/
  | fakeJoin
  /-- A task or event forks without conditions. -/
  | implicitSplit
  /-- A gateway forks and joins. -/
  | joinFork
  /-- A gateway has one source and one target. -/
  | superfluousGateway
  /-- Complex gateways are not allowed. -/
  | complexGateway
  /-- Inclusive gateways are not allowed. -/
  | inclusiveGateway
  /-- A name is missing. -/
  | missingLabel
  /-- A node has no flow on one of its sides. -/
  | disconnected
  /-- Two flows have the same ends and the same condition. -/
  | duplicateFlow
  /-- A user task has no node type. -/
  | missingNodeType
  /-- A user task has no approval type. -/
  | missingApprovalType
  /-- A user task has assignees and no assignment strategy. -/
  | missingAssignment
  /-- A rule could not make sense of an element. -/
  | ruleFault
deriving DecidableEq, Repr

namespace Code

/-- All codes, in the order of their texts. -/
def all : List Code :=
  [.missingEndEvent, .missingStartEvent, .untypedStartEvent, .typedStartEvent,
    .multipleBlankStarts, .multipleDefinitions, .missingCondition, .fakeJoin, .implicitSplit,
    .joinFork, .superfluousGateway, .complexGateway, .inclusiveGateway, .missingLabel,
    .disconnected, .duplicateFlow, .missingNodeType, .missingApprovalType, .missingAssignment,
    .ruleFault]

/-- The code as written. -/
def text : Code → String
  | .missingEndEvent => "L001"
  | .missingStartEvent => "L002"
  | .untypedStartEvent => "L003"
  | .typedStartEvent => "L004"
  | .multipleBlankStarts => "L005"
  | .multipleDefinitions => "L006"
  | .missingCondition => "L100"
  | .fakeJoin => "L101"
  | .implicitSplit => "L102"
  | .joinFork => "L200"
  | .superfluousGateway => "L201"
  | .complexGateway => "L202"
  | .inclusiveGateway => "L203"
  | .missingLabel => "L300"
  | .disconnected => "L301"
  | .duplicateFlow => "L302"
  | .missingNodeType => "L400"
  | .missingApprovalType => "L401"
  | .missingAssignment => "L402"
  | .ruleFault => "L900"

/-- A few words on what the code means. -/
def description : Code → String
  | .missingEndEvent => "missing end event"
  | .missingStartEvent => "missing start event"
  | .untypedStartEvent => "untyped event sub-process start event"
  | .typedStartEvent => "typed sub-process start event"
  | .multipleBlankStarts => "multiple blank start events"
  | .multipleDefinitions => "multiple event definitions"
  | .missingCondition => "missing flow condition"
  | .fakeJoin => "fake join"
  | .implicitSplit => "implicit split"
  | .joinFork => "gateway forks and joins"
  | .superfluousGateway => "superfluous gateway"
  | .complexGateway => "complex gateway"
  | .inclusiveGateway => "inclusive gateway"
  | .missingLabel => "missing label"
  | .disconnected => "disconnected element"
  | .duplicateFlow => "duplicate sequence flow"
  | .missingNodeType => "missing node type"
  | .missingApprovalType => "missing approval type"
  | .missingAssignment => "missing assignment strategy"
  | .ruleFault => "rule fault"

/-- The code with the given text. -/
def ofText? (text : String) : Option Code :=
  all.find? fun code => code.text = text

end Code

end BusinessProcess.Lint
