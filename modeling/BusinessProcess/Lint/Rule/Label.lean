import BusinessProcess.Lint.Rule.Basic
import BusinessProcess.Text.Blank

/-!
# The rule about names

Flow nodes, participants, lanes and flows with a condition need a name. Exempt are gateways that
do not fork or that do not decide, sub-processes, service tasks, and boundary, start and end
events.
-/

namespace BusinessProcess.Lint.Rule

/-- Whether a node needs a name. -/
def needsName (node : Node) : Bool :=
  match node.kind with
  | .gateway .parallel | .gateway .eventBased => false
  | .gateway _ => node.outgoing.length > 1
  | .event .boundary | .event .start | .event .finish => false
  | .task .service => false
  | .subProcess _ => false
  | .task _ | .callActivity | .event _ | .participant | .lane => true
  | .process | .dataObject | .textNote => false

/-- Elements that need a name have one that is not blank. -/
def labelRequired : Rule :=
  ofCheck "label-required" .missingLabel fun _ element =>
    let needed := match element with
      | .node node => needsName node
      | .flow flow => flow.condition.isSome
    .ok (if needed && element.name.all Text.isBlankText then
      [⟨element.id, "Element is missing label/name"⟩]
    else [])

end BusinessProcess.Lint.Rule
