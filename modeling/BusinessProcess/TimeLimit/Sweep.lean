import BusinessProcess.TimeLimit.Change

/-!
# Sweeping all time limits

The elements of time limits are known by their kinds and the endings of their ids. The sweep
removes all of them, whichever activity they belong to, and keeps the values on the activities.
-/

namespace BusinessProcess.TimeLimit

/-- Whether a node has the kind and the ending of an element of a time limit. -/
def isLimitNode (node : Node) : Bool :=
  match node.kind with
  | .event .boundary => all.any fun limit => node.id.endsWith limit.boundaryEnding
  | .task .service => node.id.endsWith serviceEnding
  | _ => false

/-- Whether a flow has the ending of a flow of a time limit. -/
def isLimitFlow (flow : SequenceFlow) : Bool :=
  flow.id.endsWith serviceFlowEnding

/-- Removes flows one after the other and counts those that were there. -/
def sweepFlows : List ElementId → TimerChange Nat
  | [] => pure 0
  | id :: rest => do
      let removed ← TimerChange.removeFlow id
      let others ← sweepFlows rest
      return (if removed.isSome then 1 else 0) + others

/-- Removes nodes one after the other and counts those that were there. -/
def sweepNodes : List ElementId → TimerChange Nat
  | [] => pure 0
  | id :: rest => do
      let removed ← TimerChange.removeNode id
      let others ← sweepNodes rest
      return (if removed.isSome then 1 else 0) + others

/-- Removes every element of a time limit and counts the removed ones. -/
def sweep : TimerChange Nat := do
  let graph ← get
  let flows ← sweepFlows ((graph.flows.filter isLimitFlow).map SequenceFlow.id)
  let nodes ← sweepNodes ((graph.nodes.filter isLimitNode).map Node.id)
  return flows + nodes

end BusinessProcess.TimeLimit
