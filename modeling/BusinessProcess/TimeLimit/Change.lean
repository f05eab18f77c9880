import BusinessProcess.Graph.Edit
import BusinessProcess.TimeLimit.Derivation

/-!
# Setting and clearing time limits

Entering a limit keeps it on its activity and installs its timer; the limits that depend on it
are worked out again. Clearing a limit removes its timer and those that depend on it, whose
values are kept. A limit that cannot be worked out changes nothing.

These changes consist of several steps. When a step is refused, the steps before it stay, so a
change yields a graph in any case.
-/

namespace BusinessProcess

/-- A change of a process that yields an `α` or stops with a timer error; either way it leaves a
process behind. -/
abbrev TimerChange (α : Type) := EStateM TimerError Graph α

/-- Makes a change of the process that it may refuse. -/
def TimerChange.attempt (change : Graph → Except GraphError Graph) : TimerChange Unit :=
  fun graph =>
    match change graph with
    | .ok changed => .ok () changed
    | .error error => .error (.graph error) graph

/-- Makes a change of the process that cannot fail. -/
def TimerChange.apply (change : Graph → Graph) : TimerChange Unit :=
  fun graph => .ok () (change graph)

/-- Removes a flow and says which one it was. -/
def TimerChange.removeFlow (id : ElementId) : TimerChange (Option SequenceFlow) :=
  fun graph => .ok (graph.removeFlow id).1 (graph.removeFlow id).2

/-- Removes a node and says which one it was. -/
def TimerChange.removeNode (id : ElementId) : TimerChange (Option Node) :=
  fun graph =>
    match graph.removeNode id with
    | .ok (removed, left) => .ok removed left
    | .error error => .error (.graph error) graph

namespace TimeLimit

/-- The container that the elements of a time limit of `activity` are added to. -/
def owningContainer (graph : Graph) (activity : ElementId) : Except TimerError ElementId :=
  match graph.node? activity with
  | none => .error (.unknownElement activity)
  | some node =>
      if node.kind.isActivity then
        match node.parent with
        | some container => .ok container
        | none => .error (.detached activity)
      else .error (.notAnActivity activity)

/-- The attributes of a node; there are none where there is no node. -/
def attributesOf (graph : Graph) (id : ElementId) : Attributes :=
  match graph.node? id with
  | some node => node.attributes
  | none => .empty

/-- The boundary event of a time limit of `activity`. It does not interrupt the activity. -/
def boundaryEvent (activity : ElementId) (setting : Setting) : Node :=
  { Node.alone (setting.limit.boundaryId activity) (.event .boundary) with
    definitions := [.timer setting.expression]
    attributes := .ofList [("cancelActivity", "false"), ("attachedToRef", activity.text)] }

/-- The service task that escalates when a time limit is exceeded. -/
def serviceTask (activity : ElementId) (limit : TimeLimit) (delegate : String) : Node :=
  { Node.alone (serviceId (limit.boundaryId activity)) (.task .service) with
    attributes := .ofList [("flowable:delegateExpression", delegate)] }

/-- The flow from the boundary event of a time limit to its service task. -/
def serviceFlow (activity : ElementId) (limit : TimeLimit) : SequenceFlow :=
  let boundary := limit.boundaryId activity
  .between (serviceFlowId boundary) boundary (serviceId boundary)

/-- Removes the three elements of a time limit, those that are there. -/
def uninstall (activity : ElementId) (limit : TimeLimit) : TimerChange Unit := do
  let boundary := limit.boundaryId activity
  let _ ← TimerChange.removeFlow (serviceFlowId boundary)
  let _ ← TimerChange.removeNode (serviceId boundary)
  let _ ← TimerChange.removeNode boundary

/-- Puts the three elements of a time limit into `container`, in place of those that are
there. -/
def install (delegate : String) (container activity : ElementId) (setting : Setting) :
    TimerChange Unit := do
  uninstall activity setting.limit
  .attempt (·.addNode container (boundaryEvent activity setting))
  .attempt (·.addNode container (serviceTask activity setting.limit delegate))
  .attempt (·.addFlow container (serviceFlow activity setting.limit))

/-- Works out the given limits of `activity` again, each before those that depend on it. Once one
is missing or cannot be worked out, it and all after it are uninstalled. -/
def refresh (delegate : String) (container activity : ElementId) :
    (reached : Bool) → List TimeLimit → TimerChange Unit
  | _, [] => pure ()
  | false, limit :: rest => do
      uninstall activity limit
      refresh delegate container activity false rest
  | true, limit :: rest => do
      let attributes := attributesOf (← get) activity
      let worked := match stored? attributes limit with
        | none => none
        | some raw =>
            match derive attributes limit raw with
            | .ok expression => some (Setting.mk limit raw expression)
            | .error _ => none
      match worked with
      | some setting =>
          install delegate container activity setting
          refresh delegate container activity true rest
      | none =>
          uninstall activity limit
          refresh delegate container activity false rest

/-- Sets a time limit of `activity` to the value entered, or clears it if nothing is entered.
The timers installed escalate to `delegate`. -/
def change (delegate : String) (activity : ElementId) (limit : TimeLimit)
    (value : Option String) : TimerChange Outcome := do
  let graph ← get
  match owningContainer graph activity with
  | .error error => throw error
  | .ok container =>
      match Text.entered? value with
      | none =>
          .apply (·.updateNode activity (·.eraseAttribute limit.attributeKey))
          uninstall activity limit
          refresh delegate container activity false limit.dependents
          return .removed
      | some raw =>
          match derive (attributesOf graph activity) limit raw with
          | .error obstacle => return .skipped obstacle
          | .ok expression =>
              let setting : Setting := ⟨limit, raw, expression⟩
              .apply (·.updateNode activity (·.setAttribute limit.attributeKey raw))
              install delegate container activity setting
              refresh delegate container activity true limit.dependents
              return .installed setting

/-- Removes an activity together with the elements of all its time limits. Says which node was
removed, if there was one. -/
def removeActivity (activity : ElementId) : TimerChange (Option Node) := do
  all.forM (uninstall activity)
  .removeNode activity

end TimeLimit

end BusinessProcess
