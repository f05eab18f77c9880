import BusinessProcess.Lint.Rule.Basic

/-!
# The rule about duplicate flows

Two flows are the same when they have the same ends and the same condition. The first one met
stands; each later one is remarked on, and so are its source and its target, once in a run.
-/

namespace BusinessProcess.Lint.Rule

/-- What makes two flows the same: their ends and the body of their condition. A flow without
condition counts as one with an empty condition. -/
structure FlowKey where
  source : ElementId
  target : ElementId
  condition : String
deriving DecidableEq

/-- The key of a flow. -/
def flowKey (flow : SequenceFlow) : FlowKey :=
  ⟨flow.source, flow.target, flow.condition.getD ""⟩

/-- The ending of the flows that belong to time limits. They are never duplicates. -/
def exemptEnding : String :=
  "_service_flow"

/-- The flow that an element is, unless it belongs to a time limit. -/
def comparedFlow? : Element → Option SequenceFlow
  | .flow flow => if flow.id.endsWith exemptEnding then none else some flow
  | .node _ => none

/-- Whether a flow is the same as one of those met before it. -/
def repeats (before : List SequenceFlow) (flow : SequenceFlow) : Bool :=
  before.any fun other => flowKey other = flowKey flow

/-- The flows that are the same as one met before them, of a list with the latest first. -/
def repetitions : List SequenceFlow → List SequenceFlow
  | [] => []
  | flow :: before =>
      if repeats before flow then flow :: repetitions before else repetitions before

/-- What is remarked about a flow, given the flows met before it, the latest first. -/
def duplicateRemarks (before : List SequenceFlow) (flow : SequenceFlow) : List Remark :=
  if repeats before flow then
    let remarked := repetitions before
    [⟨flow.id, "SequenceFlow is a duplicate"⟩]
      ++ (if remarked.any fun other => other.source = flow.source then []
        else [⟨flow.source, "Duplicate outgoing sequence flows"⟩])
      ++ (if remarked.any fun other => other.target = flow.target then []
        else [⟨flow.target, "Duplicate incoming sequence flows"⟩])
  else []

/-- No two flows have the same ends and the same condition. -/
def noDuplicateSequenceFlows : Rule where
  name := "no-duplicate-sequence-flows"
  code := .duplicateFlow
  check _ met element :=
    match comparedFlow? element with
    | some flow => ⟨duplicateRemarks (met.filterMap comparedFlow?) flow, none⟩
    | none => ⟨[], none⟩

end BusinessProcess.Lint.Rule
