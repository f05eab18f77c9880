import BusinessProcess.Proofs.Graph.Relinking
import BusinessProcess.Proofs.History.Integrity
import BusinessProcess.Proofs.TimeLimit.Keep

/-!
# Processes that were read from documents without references

A document that omits references is read by drawing its flows without them. Whatever is done to such
a process, each operation answers as it would had the references been there, and the processes stay
drawn alike. The induction runs over the operations; what carries it is that no operation looks at
references to drawn flows.
-/

namespace BusinessProcess

open TimerChange

/-- What an operation on a process yields. -/
inductive Answer where
  | done
  /-- Whether there was an element to be described. -/
  | found (isThere : Bool)
  | flow (removed : Option SequenceFlow)
  | node (removed : Option Node)
  | expression (shown : Option TimerExpression)
  | outcome (reached : TimeLimit.Outcome)
  | count (removed : Nat)
deriving DecidableEq

/-- Makes a change that may be refused and has nothing else to answer. -/
def TimerChange.accept (change : Graph → Except GraphError Graph) : TimerChange Answer :=
  fun graph =>
    match change graph with
    | .ok changed => .ok .done changed
    | .error error => .error (.graph error) graph

/-- Describes an element and says whether it was there. -/
def TimerChange.describe (isThere : Graph → Bool) (change : Graph → Graph) : TimerChange Answer :=
  fun graph => .ok (.found (isThere graph)) (change graph)

/-- An edit with its answer. -/
def Edit.perform : Edit → TimerChange Answer
  | .addNode parent node => .accept (·.addNode parent node)
  | .addFlow parent flow => .accept (·.addFlow parent flow)
  | .addFlowUnlinked parent flow => .accept (·.addFlowUnlinked parent flow)
  | .removeFlow id => return .flow (← TimerChange.removeFlow id)
  | .removeNode id => return .node (← TimerChange.removeNode id)
  | .setName id name => .describe (fun graph => (graph.node? id).isSome) (·.setName id name)
  | .setDefinitions id definitions =>
      .describe (fun graph => (graph.node? id).isSome) (·.setDefinitions id definitions)
  | .changeAttributes id change => .describe (·.contains id) (·.changeAttributes id change)
  | .changeNodeAttributes id change =>
      .describe (fun graph => (graph.node? id).isSome) (·.updateNode id fun node =>
        { node with attributes := change node.attributes })
  | .configureTimer event field value => fun graph =>
      match TimerEvent.configure graph event field value with
      | .ok (expression, changed) => .ok (.expression expression) changed
      | .error error => .error error graph

/-- A change of timers with its answer. -/
def TimerCall.perform : TimerCall → TimerChange Answer
  | .setLimit delegate activity limit value =>
      return .outcome (← limit.change delegate activity value)
  | .removeActivity activity => return .node (← TimeLimit.removeActivity activity)
  | .sweep => return .count (← TimeLimit.sweep)

/-- Whatever an edit answers, the process is the one that it is said to leave. -/
theorem Edit.left_perform (edit : Edit) (graph : Graph) :
    edit.perform.left graph = edit.run graph := by
  have accepted : ∀ change : Graph → Except GraphError Graph,
      (TimerChange.accept change).left graph = (change graph).toOption.getD graph := by
    intro change
    simp only [TimerChange.left, TimerChange.accept]
    cases change graph <;> rfl
  cases edit with
  | addNode | addFlow | addFlowUnlinked => exact accepted _
  | removeFlow | setName | setDefinitions | changeAttributes | changeNodeAttributes => rfl
  | removeNode id =>
      cases done : graph.removeNode id with
      | ok result =>
          have made : TimerChange.removeNode id graph = .ok result.1 result.2 := by
            simp only [TimerChange.removeNode, done]
          rw [TimerChange.left, Edit.perform, bind_of_ok made, Edit.run, done]
          rfl
      | error error =>
          have refused : TimerChange.removeNode id graph = .error (.graph error) graph := by
            simp only [TimerChange.removeNode, done]
          rw [TimerChange.left, Edit.perform, bind_of_error refused, Edit.run, done]
  | configureTimer event field value =>
      simp only [TimerChange.left, Edit.perform, Edit.run]
      cases TimerEvent.configure graph event field value <;> rfl

/-- The answer of a change of timers has no part in what it leaves. -/
theorem TimerCall.left_perform (call : TimerCall) (graph : Graph) :
    call.perform.left graph = call.run.left graph := by
  have mapped : ∀ {α : Type} (change : TimerChange α) (answer : α → Answer),
      (do return answer (← change) : TimerChange Answer).left graph =
        (do let _ ← change : TimerChange Unit).left graph := by
    intro α change answer
    cases done : change graph with
    | ok value left =>
        rw [TimerChange.left, TimerChange.left, bind_of_ok done, bind_of_ok done]
        rfl
    | error error left =>
        rw [TimerChange.left, TimerChange.left, bind_of_error done, bind_of_error done]
  cases call <;> exact mapped _ _

/-- An operation on a process. -/
inductive Operation where
  | edit (edit : Edit)
  | timers (call : TimerCall)

namespace Operation

def perform : Operation → TimerChange Answer
  | .edit single => single.perform
  | .timers call => call.perform

/-- What several operations answer, one after the other and whatever becomes of each, and the
process that they leave. -/
def performAll : List Operation → Graph → List (Except TimerError Answer) × Graph
  | [], graph => ([], graph)
  | operation :: rest, graph =>
      let later := performAll rest (operation.perform.left graph)
      (operation.perform.answer graph :: later.1, later.2)

/-- What becomes of an operation when a process is read from a document: a flow may be drawn
without references. -/
inductive ReadAs : Operation → Operation → Prop where
  | same (operation : Operation) : ReadAs operation operation
  | unlinked (parent : ElementId) (flow : SequenceFlow) :
      ReadAs (.edit (.addFlow parent flow)) (.edit (.addFlowUnlinked parent flow))

end Operation

/-! ## Operations on what is left of a process -/

namespace Graph

/-- A change that answers the same on what is left of a process, and leaves the same of it, cannot
tell processes apart that are drawn alike. -/
theorem tracks_of_unlinked {α : Type} {change : TimerChange α}
    (answers : ∀ graph, change.answer graph.unlinked = change.answer graph)
    (leaves : ∀ graph, (change.left graph.unlinked).unlinked = (change.left graph).unlinked) :
    Tracks DrawnAlike change := by
  intro graph other alike
  constructor
  · rw [← answers graph, ← answers other, alike]
  · rw [DrawnAlike, ← leaves graph, ← leaves other, alike]

section Refusal

variable {change other : Graph → Except GraphError Graph} {graph later : Graph}

/-- Changes that are refused alike, and leave the same of the process if they are not, cannot be
told apart. -/
theorem accept_alike (alike : graph.DrawnAlike later)
    (same : (change graph).map unlinked = (other later).map unlinked) :
    (TimerChange.accept change).answer graph = (TimerChange.accept other).answer later ∧
      ((TimerChange.accept change).left graph).DrawnAlike
        ((TimerChange.accept other).left later) := by
  simp only [TimerChange.answer, TimerChange.left, TimerChange.accept]
  revert same
  cases change graph <;> cases other later <;> intro same
  case error.error => exact ⟨congrArg _ (congrArg _ (Except.error.inj same)), alike⟩
  case error.ok => cases same
  case ok.error => cases same
  case ok.ok => exact ⟨rfl, Except.ok.inj same⟩

variable (same : ∀ graph, (change graph.unlinked).map unlinked = (change graph).map unlinked)
include same

theorem tracks_accept : Tracks DrawnAlike (.accept change) := by
  intro graph later alike
  refine accept_alike alike ?_
  rw [← same graph, ← same later, alike]

theorem tracks_attempt : Tracks DrawnAlike (.attempt change) := by
  have onBoth : ∀ graph later : Graph, graph.DrawnAlike later →
      (change graph).map unlinked = (change later).map unlinked := by
    intro graph later alike
    rw [← same graph, ← same later, alike]
  have refused : ∀ {first second : Except GraphError Graph} {error : GraphError},
      first.map unlinked = second.map unlinked → first = .error error → second = .error error := by
    rintro _ (_ | _) error both rfl
    · exact congrArg Except.error (Except.error.inj both).symm
    · cases both
  refine .attempt (fun graph later error alike => ?_) fun graph later _ _ alike made madeThere => ?_
  · exact ⟨refused (onBoth graph later alike), refused (onBoth graph later alike).symm⟩
  · have both := onBoth graph later alike
    rw [made, madeThere] at both
    exact Except.ok.inj both

end Refusal

theorem DrawnAlike.flows_eq {graph other : Graph} (alike : graph.DrawnAlike other) :
    graph.flows = other.flows :=
  (congrArg Graph.flows alike :)

/-- Of processes that are drawn alike the same is left of each node. -/
theorem DrawnAlike.bare_eq {graph other : Graph} (alike : graph.DrawnAlike other) :
    graph.bare = other.bare := by
  funext node
  rw [← bare_unlinked graph, ← bare_unlinked other, alike]

theorem DrawnAlike.node?_eq {graph other : Graph} (alike : graph.DrawnAlike other)
    (id : ElementId) : (graph.node? id).map graph.bare = (other.node? id).map graph.bare := by
  rw [← node?_unlinked, alike, node?_unlinked, alike.bare_eq]

theorem tracks_apply {change : Graph → Graph}
    (leaves : ∀ graph : Graph, (change graph).unlinked = change graph.unlinked) :
    Tracks DrawnAlike (.apply change) := by
  refine .apply fun graph other alike => ?_
  rw [DrawnAlike, leaves, leaves, alike]

theorem tracks_describe {isThere : Graph → Bool} {change : Graph → Graph}
    (sees : ∀ graph : Graph, isThere graph.unlinked = isThere graph)
    (leaves : ∀ graph : Graph, (change graph).unlinked = change graph.unlinked) :
    Tracks DrawnAlike (.describe isThere change) := by
  intro graph other alike
  have sameSight : isThere graph = isThere other := by
    rw [← sees graph, ← sees other, alike]
  refine ⟨congrArg (fun isThere => Except.ok (Answer.found isThere)) sameSight, ?_⟩
  show (change graph).unlinked = (change other).unlinked
  rw [leaves, leaves, alike]

theorem tracks_removeFlow (id : ElementId) : Tracks DrawnAlike (TimerChange.removeFlow id) := by
  refine tracks_of_unlinked (fun graph => ?_) fun graph => ?_
  · simp only [TimerChange.answer, TimerChange.removeFlow, removeFlow_unlinked]
  · simp only [TimerChange.left, TimerChange.removeFlow, removeFlow_unlinked, unlinked_unlinked]

theorem tracks_removeNode (id : ElementId) : Tracks DrawnAlike (TimerChange.removeNode id) := by
  refine tracks_of_unlinked (fun graph => ?_) fun graph => ?_
  · simp only [TimerChange.answer, TimerChange.removeNode, removeNode_unlinked]
    cases graph.removeNode id <;> rfl
  · simp only [TimerChange.left, TimerChange.removeNode, removeNode_unlinked]
    cases graph.removeNode id with
    | error error => exact unlinked_unlinked graph
    | ok result => exact unlinked_unlinked result.2

/-- Every edit can be made on what is left of a process. -/
theorem tracks_edit (edit : Edit) : Tracks DrawnAlike edit.perform := by
  have isNode : ∀ (id : ElementId) (graph : Graph),
      (graph.unlinked.node? id).isSome = (graph.node? id).isSome := by
    intro id graph
    rw [node?_unlinked, Option.isSome_map]
  cases edit with
  | addNode parent node => exact tracks_accept fun graph => map_unlinked_addNode graph parent node
  | addFlow parent flow => exact tracks_accept fun graph => map_unlinked_addFlow graph parent flow
  | addFlowUnlinked parent flow =>
      exact tracks_accept fun graph => map_unlinked_addFlowUnlinked graph parent flow
  | removeFlow id => exact (tracks_removeFlow id).bind fun _ => .pure _
  | removeNode id => exact (tracks_removeNode id).bind fun _ => .pure _
  | setName id name =>
      exact tracks_describe (isNode id) fun graph => unlinked_updateNode graph id fun _ => rfl
  | setDefinitions id definitions =>
      exact tracks_describe (isNode id) fun graph => unlinked_updateNode graph id fun _ => rfl
  | changeAttributes id change =>
      exact tracks_describe (contains_unlinked · id) fun graph =>
        unlinked_changeAttributes graph id change
  | changeNodeAttributes id change =>
      exact tracks_describe (isNode id) fun graph => unlinked_updateNode graph id fun _ => rfl
  | configureTimer event field value =>
      refine tracks_of_unlinked (fun graph => ?_) fun graph => ?_
      · simp only [TimerChange.answer, Edit.perform, configure_unlinked]
        cases TimerEvent.configure graph event field value <;> rfl
      · simp only [TimerChange.left, Edit.perform, configure_unlinked]
        cases TimerEvent.configure graph event field value with
        | error error => exact unlinked_unlinked graph
        | ok result => exact unlinked_unlinked result.2

/-! ## Changes of timers -/

theorem tracks_uninstall (activity : ElementId) (limit : TimeLimit) :
    Tracks DrawnAlike (TimeLimit.uninstall activity limit) :=
  (tracks_removeFlow _).bind fun _ => (tracks_removeNode _).bind fun _ =>
    (tracks_removeNode _).bind fun _ => .pure _

theorem tracks_install (delegate : String) (container activity : ElementId)
    (setting : TimeLimit.Setting) :
    Tracks DrawnAlike (TimeLimit.install delegate container activity setting) :=
  (tracks_uninstall activity setting.limit).bind fun _ =>
    (tracks_attempt fun graph => map_unlinked_addNode graph container _).bind fun _ =>
      (tracks_attempt fun graph => map_unlinked_addNode graph container _).bind fun _ =>
        tracks_attempt fun graph => map_unlinked_addFlow graph container _

theorem tracks_change (delegate : String) (activity : ElementId) (limit : TimeLimit)
    (value : Option String) : Tracks DrawnAlike (limit.change delegate activity value) :=
  TimeLimit.tracks_change_of (fun _ => DrawnAlike)
    (fun graph _ alike => TimeLimit.owningContainer_congr graph.bare (fun _ => rfl) (fun _ => rfl)
      (alike.node?_eq activity))
    (fun _ _ _ alike _ => alike) (fun _ _ _ alike => alike)
    (fun _ graph _ alike => TimeLimit.attributesOf_congr graph.bare (fun _ => rfl)
      (alike.node?_eq activity))
    (fun _ _ => tracks_apply fun graph => unlinked_updateNode graph activity fun _ => rfl)
    (fun _ => tracks_uninstall activity)
    (fun container => tracks_install delegate container activity) limit value

theorem tracks_sweepFlows (ids : List ElementId) :
    Tracks DrawnAlike (TimeLimit.sweepFlows ids) := by
  induction ids with
  | nil => exact .pure _
  | cons id rest inductionHypothesis =>
      exact (tracks_removeFlow id).bind fun _ => inductionHypothesis.bind fun _ => .pure _

theorem tracks_sweepNodes (ids : List ElementId) :
    Tracks DrawnAlike (TimeLimit.sweepNodes ids) := by
  induction ids with
  | nil => exact .pure _
  | cons id rest inductionHypothesis =>
      exact (tracks_removeNode id).bind fun _ => inductionHypothesis.bind fun _ => .pure _

/-- What a sweep removes is told by the ids and the kinds of elements. -/
theorem tracks_sweep : Tracks DrawnAlike TimeLimit.sweep := by
  have sameNodes : ∀ graph : Graph,
      (graph.unlinked.nodes.filter TimeLimit.isLimitNode).map Node.id =
        (graph.nodes.filter TimeLimit.isLimitNode).map Node.id := by
    intro graph
    show ((graph.nodes.map graph.bare).filter TimeLimit.isLimitNode).map Node.id = _
    rw [List.filter_map, List.map_map]
    rfl
  refine .read
    (fun graph : Graph => ((graph.flows.filter TimeLimit.isLimitFlow).map SequenceFlow.id,
      (graph.nodes.filter TimeLimit.isLimitNode).map Node.id))
    (fun (flowIds, nodeIds) => do
      let flows ← TimeLimit.sweepFlows flowIds
      let nodes ← TimeLimit.sweepNodes nodeIds
      return flows + nodes)
    (fun graph other alike => ?_) fun (flowIds, nodeIds) => ?_
  · rw [alike.flows_eq, ← sameNodes graph, alike, sameNodes]
  · exact (tracks_sweepFlows flowIds).bind fun _ =>
      (tracks_sweepNodes nodeIds).bind fun _ => .pure _

/-- Every change of timers can be made on what is left of a process. -/
theorem tracks_call (call : TimerCall) : Tracks DrawnAlike call.perform := by
  cases call with
  | setLimit delegate activity limit value =>
      exact (tracks_change delegate activity limit value).bind fun _ => .pure _
  | removeActivity activity =>
      have each : Tracks DrawnAlike (TimeLimit.all.forM (TimeLimit.uninstall activity)) :=
        (tracks_uninstall activity _).bind fun _ => (tracks_uninstall activity _).bind fun _ =>
          (tracks_uninstall activity _).bind fun _ => .pure _
      exact (each.bind fun _ => tracks_removeNode activity).bind fun _ => .pure _
  | sweep => exact tracks_sweep.bind fun _ => .pure _

end Graph

/-! ## Runs of operations -/

namespace Operation

/-- An operation answers the same on processes that are drawn alike, be they read from a document or
not, and leaves them drawn alike. -/
theorem ReadAs.alike {operation other : Operation} (readAs : operation.ReadAs other)
    {graph later : Graph} (alike : graph.DrawnAlike later) :
    operation.perform.answer graph = other.perform.answer later ∧
      (operation.perform.left graph).DrawnAlike (other.perform.left later) := by
  cases readAs with
  | same =>
      cases operation with
      | edit edit => exact Graph.tracks_edit edit graph later alike
      | timers call => exact Graph.tracks_call call graph later alike
  | unlinked parent flow =>
      refine Graph.accept_alike alike ?_
      rw [Graph.addFlow_alike, ← Graph.map_unlinked_addFlowUnlinked graph, alike,
        Graph.map_unlinked_addFlowUnlinked]

/-- Operations on a process answer as they do on the process read from a document, and the two stay
drawn alike. -/
theorem performAll_alike {operations others : List Operation}
    (readAs : List.Forall₂ ReadAs operations others) {graph later : Graph}
    (alike : graph.DrawnAlike later) :
    (performAll operations graph).1 = (performAll others later).1 ∧
      (performAll operations graph).2.DrawnAlike (performAll others later).2 := by
  induction readAs generalizing graph later with
  | nil => exact ⟨rfl, alike⟩
  | cons first _ inductionHypothesis =>
      obtain ⟨sameAnswer, left⟩ := first.alike alike
      obtain ⟨sameRest, finished⟩ := inductionHypothesis left
      exact ⟨congrArg₂ List.cons sameAnswer sameRest, finished⟩

end Operation

/-- Operations on a reached process lead to reached processes, whatever they answer, as long as
their edits are always allowed. -/
theorem Reached.exists_performAll {policy : Policy} {root : ElementId} {ledger : Ledger}
    (reached : Reached policy root ledger) {operations : List Operation}
    (allowed : ∀ edit, .edit edit ∈ operations → ∀ ledger, policy.Allows ledger edit) :
    ∃ later, Reached policy root later ∧
      later.graph = (Operation.performAll operations ledger.graph).2 := by
  induction operations generalizing ledger with
  | nil => exact ⟨ledger, reached, rfl⟩
  | cons operation rest inductionHypothesis =>
      have allowedLater : ∀ edit, .edit edit ∈ rest → ∀ ledger, policy.Allows ledger edit :=
        fun edit later => allowed edit (List.mem_cons_of_mem _ later)
      obtain ⟨middle, reachedMiddle, left⟩ : ∃ middle, Reached policy root middle ∧
          middle.graph = operation.perform.left ledger.graph := by
        cases operation with
        | edit edit =>
            exact ⟨ledger.record edit, reached.edit (allowed edit List.mem_cons_self ledger),
              (edit.left_perform ledger.graph).symm⟩
        | timers call =>
            obtain ⟨later, reachedLater, left⟩ := reached.exists_left call
            exact ⟨later, reachedLater, left.trans (call.left_perform ledger.graph).symm⟩
      obtain ⟨last, reachedLast, finished⟩ := inductionHypothesis reachedMiddle allowedLater
      rw [left] at finished
      exact ⟨last, reachedLast, finished⟩

end BusinessProcess
