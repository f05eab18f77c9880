import BusinessProcess.Lint.Rule.Basic

/-!
# Rules about flows

Which nodes may fork and join, and which flows need a condition. These rules go by the
references of a node.
-/

namespace BusinessProcess.Lint.Rule

/-- Whether a node is a task or an event. -/
def isTaskOrEvent (node : Node) : Bool :=
  node.kind.isTask || node.kind.isEvent

/-- A node that forks on conditions has a condition on every flow but the default one. -/
def conditionalFlows : Rule :=
  ofCheck "conditional-flows" .missingCondition fun graph element =>
    match element with
    | .flow _ => .ok []
    | .node node =>
        if node.outgoing.isEmpty then .ok []
        else
          match graph.outgoing node.id with
          | .error error => .error (.graph error)
          | .ok flows =>
              if flows.any SequenceFlow.isGuarded then
                .ok ((flows.filter fun flow => !flow.isGuarded).map fun flow =>
                  ⟨flow.id, "Sequence flow is missing condition"⟩)
              else .ok []

/-- Only gateways join. -/
def fakeJoin : Rule :=
  ofNodeCheck "fake-join" .fakeJoin fun _ node =>
    remarkIf (isTaskOrEvent node && node.incoming.length > 1) node "Incoming flows do not join"

/-- Tasks and events do not fork without conditions. -/
def noImplicitSplit : Rule :=
  ofCheck "no-implicit-split" .implicitSplit fun graph element =>
    match element with
    | .flow _ => .ok []
    | .node node =>
        if isTaskOrEvent node then
          match graph.outgoing node.id with
          | .error error => .error (.graph error)
          | .ok flows =>
              .ok (remarkIf (flows.countP (fun flow => !flow.isGuarded) > 1) node
                "Flow splits implicitly")
        else .ok []

end BusinessProcess.Lint.Rule
