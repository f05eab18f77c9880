import BusinessProcess.Lint.Run

/-!
# Required fields of user tasks

A process may be sound while its user tasks are not yet fully configured, so their fields are
checked apart from the rules. A user task needs a node type and an approval type, and with a list
of assignees also a strategy of assignment.
-/

namespace BusinessProcess.Lint.RequiredFields

/-- The attribute with the node type of a user task. -/
def nodeType : String :=
  "normal:nodeType"

/-- The attribute with the approval type of a user task. -/
def approvalType : String :=
  "normal:type"

/-- The attribute with the assignees of a user task. -/
def assigneeList : String :=
  "assignee:assigneeList"

/-- The attribute with the strategy by which a user task is assigned. -/
def assignmentStrategy : String :=
  "assignee:assign"

/-- The fields that a user task lacks: the code for each, and what it says about the task. -/
def lacking (task : Node) : List (Code × String) :=
  let isFilled key := (task.attributes.filled? key).isSome
  (if isFilled nodeType then [] else [(.missingNodeType, "node type is required")])
    ++ (if isFilled approvalType then [] else [(.missingApprovalType, "approval type is required")])
    ++ (if isFilled assigneeList && !isFilled assignmentStrategy then
      [(.missingAssignment, "assignees are configured, an assignment strategy is required")]
    else [])

/-- The findings on a user task. -/
def findings (translate : Translator) (task : Node) : List Finding :=
  (lacking task).map fun (code, lack) =>
    let attribution : Attribution := ⟨"required-fields", code, .error⟩
    attribution.finding translate
      ⟨task.id, "User task " ++ task.name.getD "" ++ ": " ++ lack⟩

/-- The report on all user tasks of a process, in the order in which they were added. -/
def check (translate : Translator) (graph : Graph) : Report :=
  .ofFindings ((graph.nodes.filter fun node => node.kind = .task .user).flatMap
    (findings translate))

end BusinessProcess.Lint.RequiredFields
