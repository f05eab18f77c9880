import BusinessProcess.Proofs.Graph.Trimming
import BusinessProcess.Proofs.TimeLimit.Keep

/-!
# Elements that bear the ids of timers

The parts of a time limit are removed and added by id, whatever element bears the id. On a process
where another element bears one, a removal takes that element along with all that lies in it, and an
addition is refused. Here a change of a time limit is followed through its steps: which nodes are
left after each of them, and which of them is refused for what reason.
-/

namespace BusinessProcess

/-! ## Changes that may be refused on the way -/

namespace TimerChange

variable {α β : Type}

/-- From every process with the property `before` the change leads to an answer and a process as
`after` says, unless it is refused as `refused` says. -/
def Leads (change : TimerChange α) (before : Graph → Prop) (after : α → Graph → Prop)
    (refused : TimerError → Graph → Prop) : Prop :=
  ∀ graph, before graph →
    match change graph with
    | .ok value left => after value left
    | .error error left => refused error left

namespace Leads

variable {before : Graph → Prop} {refused : TimerError → Graph → Prop}

/-- What holds after an answer that was given. -/
theorem answered {change : TimerChange α} {after : α → Graph → Prop}
    (leads : change.Leads before after refused) {graph : Graph} (holds : before graph) {value : α}
    (answer : change.answer graph = .ok value) : after value (change.left graph) := by
  have led := leads graph holds
  rw [TimerChange.answer] at answer
  rw [TimerChange.left]
  cases done : change graph with
  | ok other left =>
      rw [done] at led answer
      rw [← Except.ok.inj answer]
      exact led
  | error error left =>
      rw [done] at answer
      cases answer

/-- What holds after a refusal. -/
theorem stopped {change : TimerChange α} {after : α → Graph → Prop}
    (leads : change.Leads before after refused) {graph : Graph} (holds : before graph)
    {error : TimerError} (answer : change.answer graph = .error error) :
    refused error (change.left graph) := by
  have led := leads graph holds
  rw [TimerChange.answer] at answer
  rw [TimerChange.left]
  cases done : change graph with
  | ok other left =>
      rw [done] at answer
      cases answer
  | error other left =>
      rw [done] at led answer
      rw [← Except.error.inj answer]
      exact led

theorem pure {value : α} {after : α → Graph → Prop}
    (already : ∀ graph, before graph → after value graph) :
    Leads (Pure.pure value : TimerChange α) before after refused :=
  already

/-- What is done next goes on from wherever the first part led to. -/
theorem bind {first : TimerChange α} {next : α → TimerChange β} {middle : α → Graph → Prop}
    {after : β → Graph → Prop} (leads : first.Leads before middle refused)
    (rest : ∀ value, (next value).Leads (middle value) after refused) :
    (first >>= next).Leads before after refused := by
  intro graph holds
  have led := leads graph holds
  cases done : first graph with
  | ok value left =>
      rw [done] at led
      rw [bind_of_ok done]
      exact rest value left led
  | error error left =>
      rw [done] at led
      rw [bind_of_error done]
      exact led

theorem apply {change : Graph → Graph} {after : Unit → Graph → Prop}
    (made : ∀ graph, before graph → after () (change graph)) :
    (TimerChange.apply change).Leads before after refused :=
  made

theorem attempt {change : Graph → Except GraphError Graph} {after : Unit → Graph → Prop}
    (made : ∀ graph changed, before graph → change graph = .ok changed → after () changed)
    (failed : ∀ graph error, before graph → change graph = .error error →
      refused (.graph error) graph) :
    (TimerChange.attempt change).Leads before after refused := by
  intro graph holds
  unfold TimerChange.attempt
  cases done : change graph with
  | ok changed => exact made graph changed holds done
  | error error => exact failed graph error holds done

/-- What a change leads to, or stops with, may be weakened. -/
theorem weaken {change : TimerChange α} {after later : α → Graph → Prop}
    {stopped : TimerError → Graph → Prop} (leads : change.Leads before after refused)
    (implies : ∀ value left, after value left → later value left)
    (stops : ∀ error left, refused error left → stopped error left) :
    change.Leads before later stopped := by
  intro graph holds
  have led := leads graph holds
  cases done : change graph with
  | ok value left =>
      rw [done] at led
      exact implies value left led
  | error error left =>
      rw [done] at led
      exact stops error left led

end Leads

end TimerChange

namespace TimeLimit

open BusinessProcess.Graph

/-! ## Clashes -/

/-- The ids of the nodes that the limits of an activity take effect through. -/
def nodeIds (activity : ElementId) (limits : List TimeLimit) : List ElementId :=
  limits.flatMap fun limit => [Part.service.id limit activity, Part.event.id limit activity]

theorem mem_nodeIds {activity id : ElementId} {limits : List TimeLimit} :
    id ∈ nodeIds activity limits ↔ ∃ limit ∈ limits,
      id = Part.service.id limit activity ∨ id = Part.event.id limit activity := by
  simp [nodeIds]

theorem nodeIds_append (activity : ElementId) (first second : List TimeLimit) :
    nodeIds activity (first ++ second) = nodeIds activity first ++ nodeIds activity second :=
  List.flatMap_append

/-- The ids of the nodes of one more limit are among those of all limits. -/
theorem append_nodeIds_subset {activity : ElementId} {gone : List ElementId}
    {limits : List TimeLimit} (cleared : gone ⊆ nodeIds activity limits) {limit : TimeLimit}
    (isTouched : limit ∈ limits) :
    gone ++ nodeIds activity [limit] ⊆ nodeIds activity limits := by
  refine List.append_subset.2 ⟨cleared, fun id isPart => ?_⟩
  obtain ⟨other, same, part⟩ := mem_nodeIds.1 isPart
  rw [List.mem_singleton.1 same] at part
  exact mem_nodeIds.2 ⟨limit, isTouched, part⟩

/-- The ids of nodes are none of flows. -/
theorem flowId_not_mem_nodeIds (activity : ElementId) (limit : TimeLimit)
    (limits : List TimeLimit) : Part.flow.id limit activity ∉ nodeIds activity limits := by
  rw [mem_nodeIds]
  rintro ⟨other, _, same | same⟩
  · cases (Part.id_inj.1 same).1
  · cases (Part.id_inj.1 same).1

/-- The limits that a change of one of them goes through. -/
def touched (limit : TimeLimit) : List TimeLimit :=
  limit :: limit.dependents

/-- No limit depends on itself, and none is listed twice. -/
theorem nodup_touched (limit : TimeLimit) : (touched limit).Nodup := by
  cases limit <;> decide

/-- The node is of a kind that a time limit takes effect through. -/
def IsTimer (node : Node) : Prop :=
  node.kind = .event .boundary ∨ node.kind = .task .service

instance (node : Node) : Decidable (IsTimer node) :=
  inferInstanceAs (Decidable (_ ∨ _))

theorem IsTimer.holdsNothing {node : Node} (isTimer : IsTimer node) :
    node.kind.isContainer = false := by
  rcases isTimer with kind | kind
  · rw [kind]
    rfl
  · rw [kind]
    rfl

/-- A part of a limit cannot be removed or added in `start`, because another element bears its id or
because the container goes with one that does. -/
inductive Clash (start : Graph) (activity container : ElementId) (limits : List TimeLimit) :
    GraphError → Prop where
  | root {id : ElementId} (isPart : id ∈ nodeIds activity limits) (isRoot : id = start.root) :
      Clash start activity container limits (.rootRemoval id)
  | container {id : ElementId} (isPart : id ∈ nodeIds activity limits)
      (inside : start.LiesIn id container) :
      Clash start activity container limits (.unknownNode container)
  | flow {flow : SequenceFlow} (drawn : flow ∈ start.flows)
      (isPart : flow.id ∈ nodeIds activity limits) :
      Clash start activity container limits (.duplicateId flow.id)
  | node {node : Node} {limit : TimeLimit} (member : node ∈ start.nodes) (isTouched : limit ∈ limits)
      (isPart : node.id = Part.flow.id limit activity) :
      Clash start activity container limits (.duplicateId node.id)

/-! ## Processes on the way -/

/-- The process is on the way of a change that has cleared the ids `gone`: apart from new parts of
limits, its nodes are those of the start that are spared, and its flows come from the start. -/
structure Midway (start : Graph) (activity container : ElementId) (gone : List ElementId)
    (graph : Graph) : Prop where
  trimmed : Trimmed start gone (fun node => IsTimer node ∧ node.parent = some container) graph
  drawn : ∀ flow ∈ graph.flows,
    flow ∈ start.flows ∨ ∃ limit, flow.id = Part.flow.id limit activity

/-- The change stops on the way, with a graph error for which there is a fault. -/
def Refused (start : Graph) (activity container : ElementId) (limits : List TimeLimit)
    (fault : GraphError → Prop) (error : TimerError) (left : Graph) : Prop :=
  ∃ cause, error = .graph cause ∧ fault cause ∧
    ∃ gone ⊆ nodeIds activity limits, Midway start activity container gone left

namespace Midway

variable {start graph : Graph} {activity container : ElementId} {gone : List ElementId}
  {limits : List TimeLimit}

theorem initially (wellFormed : start.WellFormed) : Midway start activity container [] start :=
  ⟨.initially wellFormed, fun _ drawn => .inl drawn⟩

/-- What holds the activity is a container as long as it is there. -/
theorem isContainer (midway : Midway start activity container gone graph)
    (holder : ∃ node ∈ start.nodes, node.id = container ∧ node.kind.isContainer = true)
    {node : Node} (found : graph.node? container = some node) : node.kind.isContainer = true := by
  obtain ⟨outer, member, outerId, holds⟩ := holder
  have sameId := id_of_node? found
  rcases midway.trimmed.origin _ (mem_gists.2 ⟨node, mem_of_node? found, rfl⟩) with
    ⟨wasThere, _⟩ | ⟨_, isTimer, parent⟩
  · obtain ⟨before, present, same⟩ := mem_gists.1 wasThere
    have kind : before.kind = node.kind := (congrArg Node.kind same :)
    have beforeId : before.id = node.id := (congrArg Node.id same :)
    rw [← kind, midway.trimmed.before.node_eq present member
      (beforeId.trans (sameId.trans outerId.symm))]
    exact holds
  · -- A new part lies in the container, so it is not the container itself.
    have isHeld : (Element.node node).parent = some node.id := by
      rw [sameId]
      exact parent
    have childless := midway.trimmed.wellFormed.childless_of_holdsNothing (mem_of_node? found)
      isTimer.holdsNothing
    exact absurd isHeld (midway.trimmed.wellFormed.parent_ne_of_childless (mem_of_node? found)
      childless (node_mem_elements.2 (mem_of_node? found)))

/-- What holds the activity is there unless it lies in a node whose id was cleared. -/
theorem exists_gone (midway : Midway start activity container gone graph)
    (holder : ∃ node ∈ start.nodes, node.id = container ∧ node.kind.isContainer = true)
    (absent : graph.node? container = none) : ∃ id ∈ gone, start.LiesIn id container := by
  obtain ⟨outer, member, rfl, _⟩ := holder
  by_contra spared
  push Not at spared
  obtain ⟨later, found, _⟩ := midway.trimmed.exists_spared member spared
  cases absent.symm.trans found

/-- An id of a part that no node bears is taken by a flow of the start if at all. -/
theorem clash_of_flow (midway : Midway start activity container gone graph) {id : ElementId}
    (isPart : id ∈ nodeIds activity limits) (noNode : graph.node? id = none)
    (taken : graph.contains id = true) :
    Clash start activity container limits (.duplicateId id) := by
  rw [contains, noNode, Option.isSome_none, Bool.false_or] at taken
  obtain ⟨flow, drawn, rfl⟩ := flow?_isSome_iff.1 taken
  rcases midway.drawn flow drawn with wasDrawn | ⟨limit, isFlow⟩
  · exact .flow wasDrawn isPart
  · rw [isFlow] at isPart
    exact absurd isPart (flowId_not_mem_nodeIds activity limit limits)

/-- The id of a flow of a limit that no flow bears is taken by a node of the start if at all. -/
theorem clash_of_node (midway : Midway start activity container gone graph)
    (cleared : gone ⊆ nodeIds activity limits) {limit : TimeLimit} (isTouched : limit ∈ limits)
    (noFlow : graph.flow? (Part.flow.id limit activity) = none)
    (taken : graph.contains (Part.flow.id limit activity) = true) :
    Clash start activity container limits (.duplicateId (Part.flow.id limit activity)) := by
  rw [contains, noFlow, Option.isSome_none, Bool.or_false] at taken
  obtain ⟨node, present, isFlow⟩ := node?_isSome_iff.1 taken
  rcases midway.trimmed.origin _ (mem_gists.2 ⟨node, present, rfl⟩) with ⟨wasThere, _⟩ | ⟨isGone, _⟩
  · obtain ⟨before, member, same⟩ := mem_gists.1 wasThere
    have beforeId : before.id = Part.flow.id limit activity :=
      (congrArg Node.id same :).trans isFlow
    rw [← beforeId]
    exact .node member isTouched beforeId
  · rw [Node.id_gist, isFlow] at isGone
    exact absurd (cleared isGone) (flowId_not_mem_nodeIds activity limit limits)

/-- An addition to the container of the activity is refused because of a clash. -/
theorem clash_of_checkAddition (midway : Midway start activity container gone graph)
    (cleared : gone ⊆ nodeIds activity limits)
    (holder : ∃ node ∈ start.nodes, node.id = container ∧ node.kind.isContainer = true)
    {id : ElementId} {error : GraphError}
    (failed : graph.checkAddition container id = .error error)
    (taken : graph.contains id = true → Clash start activity container limits (.duplicateId id)) :
    Clash start activity container limits error := by
  rw [checkAddition] at failed
  split at failed
  next isTaken =>
    rw [← Except.error.inj failed]
    exact taken isTaken
  next =>
    split at failed
    next absent =>
      obtain ⟨outer, isGone, inside⟩ := midway.exists_gone holder absent
      rw [← Except.error.inj failed]
      exact .container (cleared isGone) inside
    next node found =>
      rw [if_pos (midway.isContainer holder found)] at failed
      cases failed

end Midway

/-! ## Steps -/

section Steps

variable {start : Graph} {activity container : ElementId} {gone : List ElementId}
  {limits : List TimeLimit} {fault : GraphError → Prop}

/-- A removal on the way clears one more id, unless it is that of the root. What only says that
elements are not there stays. -/
theorem leads_removeNode (cleared : gone ⊆ nodeIds activity limits) {id : ElementId}
    (root : id = start.root → fault (.rootRemoval id)) (frame : Graph → Prop)
    (kept : ∀ graph left, frame graph →
      (∀ other, graph.node? other = none → left.node? other = none) →
        (∀ flow ∈ left.flows, flow ∈ graph.flows) → frame left) :
    (TimerChange.removeNode id).Leads
      (fun graph => Midway start activity container gone graph ∧ frame graph)
      (fun _ left => Midway start activity container (gone ++ [id]) left ∧
        left.node? id = none ∧ frame left)
      (Refused start activity container limits fault) := by
  rintro graph ⟨midway, framed⟩
  rcases midway.trimmed.removeNode id with ⟨isRoot, refused⟩ |
    ⟨removed, left, done, trimmed, absent, fewerNodes, fewerFlows⟩
  · simp only [TimerChange.removeNode, refused]
    exact ⟨_, rfl, root isRoot, gone, cleared, midway⟩
  · simp only [TimerChange.removeNode, done]
    exact ⟨⟨trimmed, fun flow drawn => midway.drawn flow (fewerFlows flow drawn)⟩, absent,
      kept graph left framed fewerNodes fewerFlows⟩

/-- Uninstalling a limit on the way clears the ids of its nodes, unless one of them is that of the
root. -/
theorem leads_uninstall (cleared : gone ⊆ nodeIds activity limits) {limit : TimeLimit}
    (isTouched : limit ∈ limits)
    (root : ∀ id ∈ nodeIds activity limits, id = start.root → fault (.rootRemoval id)) :
    (uninstall activity limit).Leads (Midway start activity container gone)
      (fun _ left => Midway start activity container (gone ++ nodeIds activity [limit]) left ∧
        left.node? (Part.event.id limit activity) = none ∧
        left.node? (Part.service.id limit activity) = none ∧
        left.flow? (Part.flow.id limit activity) = none)
      (Refused start activity container limits fault) := by
  have isService : Part.service.id limit activity ∈ nodeIds activity limits :=
    mem_nodeIds.2 ⟨limit, isTouched, .inl rfl⟩
  have isEvent : Part.event.id limit activity ∈ nodeIds activity limits :=
    mem_nodeIds.2 ⟨limit, isTouched, .inr rfl⟩
  let noFlow (graph : Graph) : Prop := graph.flow? (Part.flow.id limit activity) = none
  let noService (graph : Graph) : Prop := graph.node? (Part.service.id limit activity) = none
  have flowGone : (TimerChange.removeFlow (Part.flow.id limit activity)).Leads
      (Midway start activity container gone)
      (fun _ left => Midway start activity container gone left ∧ noFlow left)
      (Refused start activity container limits fault) := by
    intro graph midway
    obtain ⟨trimmed, absent, fewerFlows⟩ :=
      midway.trimmed.removeFlow (Part.flow.id limit activity)
    exact ⟨⟨trimmed, fun flow drawn => midway.drawn flow (fewerFlows flow drawn)⟩, absent⟩
  have middle : gone ++ [Part.service.id limit activity] ⊆ nodeIds activity limits :=
    List.append_subset.2 ⟨cleared, List.cons_subset.2 ⟨isService, List.nil_subset _⟩⟩
  unfold uninstall
  dsimp only
  rw [serviceFlowId_eq, serviceId_eq, boundaryId_eq]
  refine flowGone.bind fun _ => ?_
  refine (leads_removeNode cleared (root _ isService) noFlow ?_).bind fun _ => ?_
  · exact fun graph left absent _ fewerFlows => flow?_eq_none_of_fewer fewerFlows absent
  refine (leads_removeNode middle (root _ isEvent)
    (fun graph => noService graph ∧ noFlow graph) ?_).bind fun _ => .pure ?_
  · exact fun graph left absent fewerNodes fewerFlows =>
      ⟨fewerNodes _ absent.1, flow?_eq_none_of_fewer fewerFlows absent.2⟩
  rintro graph ⟨midway, noEvent, noService, noFlow⟩
  rw [List.append_assoc] at midway
  exact ⟨midway, noEvent, noService, noFlow⟩

/-! ## Additions -/

/-- An addition on the way brings a node of a limit, unless there is a clash. What says of other
nodes whether they are there, and of the flows, stays. -/
theorem leads_addNode (cleared : gone ⊆ nodeIds activity limits)
    (holder : ∃ node ∈ start.nodes, node.id = container ∧ node.kind.isContainer = true)
    {node : Node} (isGone : node.id ∈ gone) (isTimer : IsTimer node) (empty : node.children = [])
    (frame : Graph → Prop) (kept : ∀ graph added, frame graph →
      (∀ other, other ≠ node.id → (added.node? other).isSome = (graph.node? other).isSome) →
        added.flows = graph.flows → frame added) :
    (TimerChange.attempt (·.addNode container node)).Leads
      (fun graph => Midway start activity container gone graph ∧
        graph.node? node.id = none ∧ frame graph)
      (fun _ added => Midway start activity container gone added ∧
        (added.node? node.id).isSome = true ∧ frame added)
      (Refused start activity container limits (Clash start activity container limits)) := by
  refine .attempt ?_ ?_
  · rintro graph added ⟨midway, _, framed⟩ done
    have trimmed := midway.trimmed.addNode empty isGone ⟨isTimer, rfl⟩ done
    obtain ⟨_, rfl⟩ := addNode_eq_ok done
    have nodes : ∀ other, ((graph.hold container
        (.node { node with parent := some container })).node? other).isSome = true ↔
          (graph.node? other).isSome = true ∨ other = node.id := by
      intro other
      simp only [node?_isSome_iff_gists, gists_hold_node, List.mem_append, List.mem_singleton]
      constructor
      · rintro ⟨gist, isThere | rfl, rfl⟩
        · exact .inl ⟨gist, isThere, rfl⟩
        · exact .inr rfl
      · rintro (⟨gist, isThere, rfl⟩ | rfl)
        · exact ⟨gist, .inl isThere, rfl⟩
        · exact ⟨_, .inr rfl, rfl⟩
    refine ⟨⟨trimmed, midway.drawn⟩, (nodes node.id).2 (.inr rfl), kept graph _ framed ?_ rfl⟩
    intro other differs
    rw [Bool.eq_iff_iff, nodes, or_iff_left differs]
  · rintro graph error ⟨midway, absent, _⟩ failed
    refine ⟨error, rfl, ?_, gone, cleared, midway⟩
    rw [addNode] at failed
    split at failed
    next cause checked =>
      rw [← Except.error.inj failed]
      exact midway.clash_of_checkAddition cleared holder checked
        (midway.clash_of_flow (cleared isGone) absent)
    next => cases failed

/-- The flow of a limit is added between its nodes, unless there is a clash. -/
theorem leads_addFlow (cleared : gone ⊆ nodeIds activity limits)
    (holder : ∃ node ∈ start.nodes, node.id = container ∧ node.kind.isContainer = true)
    {limit : TimeLimit} (isTouched : limit ∈ limits) :
    (TimerChange.attempt (·.addFlow container (serviceFlow activity limit))).Leads
      (fun graph => Midway start activity container gone graph ∧
        (graph.node? (Part.service.id limit activity)).isSome = true ∧
        (graph.node? (Part.event.id limit activity)).isSome = true ∧
        graph.flow? (Part.flow.id limit activity) = none)
      (fun _ added => Midway start activity container gone added)
      (Refused start activity container limits (Clash start activity container limits)) := by
  have flowId : (serviceFlow activity limit).id = Part.flow.id limit activity :=
    serviceFlowId_eq _ _
  have target : (serviceFlow activity limit).target = Part.service.id limit activity :=
    serviceId_eq _ _
  refine .attempt ?_ ?_
  · rintro graph added ⟨midway, _⟩ done
    refine ⟨midway.trimmed.addFlow done, fun flow drawn => ?_⟩
    obtain ⟨drawnFirst, isDrawn, rfl⟩ := addFlow_eq_ok done
    obtain ⟨_, _, rfl⟩ := addFlowUnlinked_eq_ok isDrawn
    rcases mem_flows_hold.1 drawn with isAdded | wasDrawn
    · rw [← Element.flow.inj isAdded]
      exact .inr ⟨limit, flowId⟩
    · exact midway.drawn flow wasDrawn
  · rintro graph error ⟨midway, service, event, noFlow⟩ failed
    refine ⟨error, rfl, ?_, gone, cleared, midway⟩
    have source : (graph.node? (serviceFlow activity limit).source).isNone = false := by
      rw [Option.isNone_eq_false_iff]
      exact event
    have sink : (graph.node? (serviceFlow activity limit).target).isNone = false := by
      rw [Option.isNone_eq_false_iff, target]
      exact service
    cases checked : graph.checkAddition container (serviceFlow activity limit).id with
    | ok => simp [addFlow, addFlowUnlinked, checked, source, sink] at failed
    | error cause =>
        simp only [addFlow, addFlowUnlinked, checked] at failed
        rw [← Except.error.inj failed]
        refine midway.clash_of_checkAddition cleared holder checked ?_
        rw [flowId]
        exact midway.clash_of_node cleared isTouched noFlow

/-- Installing a limit on the way clears the ids of its nodes, unless there is a clash. -/
theorem leads_install (delegate : String) (cleared : gone ⊆ nodeIds activity limits)
    (holder : ∃ node ∈ start.nodes, node.id = container ∧ node.kind.isContainer = true)
    {setting : Setting} (isTouched : setting.limit ∈ limits) :
    (install delegate container activity setting).Leads (Midway start activity container gone)
      (fun _ => Midway start activity container (gone ++ nodeIds activity [setting.limit]))
      (Refused start activity container limits (Clash start activity container limits)) := by
  have later := append_nodeIds_subset cleared isTouched
  have isEvent : (boundaryEvent activity setting).id ∈
      gone ++ nodeIds activity [setting.limit] :=
    List.mem_append_right _ (mem_nodeIds.2 ⟨_, List.mem_singleton_self _, .inr rfl⟩)
  have isService : (serviceTask activity setting.limit delegate).id ∈
      gone ++ nodeIds activity [setting.limit] :=
    List.mem_append_right _
      (mem_nodeIds.2 ⟨_, List.mem_singleton_self _, .inl (serviceId_eq _ _)⟩)
  have service : (serviceTask activity setting.limit delegate).id =
      Part.service.id setting.limit activity := serviceId_eq _ _
  have apart : Part.service.id setting.limit activity ≠ Part.event.id setting.limit activity := by
    intro same
    cases (Part.id_inj.1 same).1
  have eventAdded := leads_addNode later holder isEvent (.inl rfl) rfl
    (fun graph => graph.node? (Part.service.id setting.limit activity) = none ∧
      graph.flow? (Part.flow.id setting.limit activity) = none) (by
        rintro graph added ⟨noService, noFlow⟩ sameNodes sameFlows
        refine ⟨?_, by rw [flow?, sameFlows]; exact noFlow⟩
        rw [← Option.not_isSome_iff_eq_none, sameNodes _ apart, noService]
        exact Bool.false_ne_true)
  have serviceAdded := leads_addNode later holder isService (.inr rfl) rfl
    (fun graph => (graph.node? (Part.event.id setting.limit activity)).isSome = true ∧
      graph.flow? (Part.flow.id setting.limit activity) = none) (by
        rintro graph added ⟨event, noFlow⟩ sameNodes sameFlows
        refine ⟨?_, by rw [flow?, sameFlows]; exact noFlow⟩
        rw [sameNodes _ (service ▸ apart.symm)]
        exact event)
  rw [service] at serviceAdded
  unfold install
  refine (leads_uninstall cleared isTouched fun id isPart isRoot => .root isPart isRoot).bind
    fun _ => ?_
  refine (eventAdded.weaken ?_ fun _ _ stopped => stopped).bind fun _ => serviceAdded.bind fun _ =>
    leads_addFlow later holder isTouched
  rintro _ left ⟨midway, event, noService, noFlow⟩
  exact ⟨midway, noService, event, noFlow⟩

/-! ## Whole changes -/

/-- Uninstalling further limits on the way clears the ids of their nodes, unless one of them is that
of the root. -/
theorem leads_refresh_false (delegate : String) {rest : List TimeLimit}
    (cleared : gone ⊆ nodeIds activity limits) (areTouched : rest ⊆ limits)
    (root : ∀ id ∈ nodeIds activity limits, id = start.root → fault (.rootRemoval id)) :
    (refresh delegate container activity false rest).Leads
      (Midway start activity container gone)
      (fun _ => Midway start activity container (gone ++ nodeIds activity rest))
      (Refused start activity container limits fault) := by
  induction rest generalizing gone with
  | nil =>
      rw [show nodeIds activity [] = [] from rfl, List.append_nil]
      exact .pure fun _ midway => midway
  | cons limit rest inductionHypothesis =>
      rw [List.cons_subset] at areTouched
      rw [← List.singleton_append, nodeIds_append, ← List.append_assoc]
      refine (leads_uninstall cleared areTouched.1 root).bind fun _ => ?_
      refine fun graph uninstalled => inductionHypothesis
        (append_nodeIds_subset cleared areTouched.1) areTouched.2 graph uninstalled.1

/-- Working out further limits on the way clears the ids of their nodes, unless there is a
clash. -/
theorem leads_refresh (delegate : String) {rest : List TimeLimit}
    (cleared : gone ⊆ nodeIds activity limits) (areTouched : rest ⊆ limits)
    (holder : ∃ node ∈ start.nodes, node.id = container ∧ node.kind.isContainer = true) :
    (refresh delegate container activity true rest).Leads
      (Midway start activity container gone)
      (fun _ => Midway start activity container (gone ++ nodeIds activity rest))
      (Refused start activity container limits (Clash start activity container limits)) := by
  induction rest generalizing gone with
  | nil =>
      rw [show nodeIds activity [] = [] from rfl, List.append_nil]
      exact .pure fun _ midway => midway
  | cons limit rest inductionHypothesis =>
      obtain ⟨isTouched, restTouched⟩ := List.cons_subset.1 areTouched
      intro graph midway
      rw [refresh_cons_apply]
      cases due : due? (attributesOf graph activity) limit with
      | none =>
          exact leads_refresh_false delegate cleared areTouched
            (fun id isPart isRoot => .root isPart isRoot) graph midway
      | some setting =>
          obtain rfl := limit_of_due? due
          rw [← List.singleton_append, nodeIds_append, ← List.append_assoc]
          exact (leads_install delegate cleared holder isTouched).bind
            (fun _ => inductionHypothesis (append_nodeIds_subset cleared isTouched) restTouched)
            graph midway

/-- The attributes of the activity may change on the way. -/
theorem leads_describe (change : Attributes → Attributes)
    (refused : TimerError → Graph → Prop) :
    (TimerChange.apply (·.updateNode activity fun node =>
      { node with attributes := change node.attributes })).Leads
      (Midway start activity container gone)
      (fun _ => Midway start activity container gone) refused :=
  .apply fun _ midway => ⟨midway.trimmed.describe activity change, midway.drawn⟩

/-- The ids of the nodes of a limit and of those that depend on it are all that a change of it
clears. -/
theorem nodeIds_touched (activity : ElementId) (limit : TimeLimit) :
    nodeIds activity [limit] ++ nodeIds activity limit.dependents =
      nodeIds activity (touched limit) :=
  (nodeIds_append activity [limit] limit.dependents).symm

/-- Clearing a limit clears the ids of its nodes and of those that depend on it, unless one of them
is that of the root. -/
theorem leads_clearing (delegate : String) (limit : TimeLimit)
    (root : ∀ id ∈ nodeIds activity (touched limit), id = start.root → fault (.rootRemoval id)) :
    TimerChange.Leads
      (do
        .apply (·.updateNode activity (·.eraseAttribute limit.attributeKey))
        uninstall activity limit
        refresh delegate container activity false limit.dependents
        return Outcome.removed)
      (Midway start activity container [])
      (fun outcome left => outcome = .removed ∧
        Midway start activity container (nodeIds activity (touched limit)) left)
      (Refused start activity container (touched limit) fault) := by
  have nothing : [] ⊆ nodeIds activity (touched limit) := List.nil_subset _
  refine (leads_describe (·.erase limit.attributeKey) _).bind fun _ => ?_
  refine (leads_uninstall nothing List.mem_cons_self root).bind fun _ => ?_
  refine TimerChange.Leads.bind (fun graph uninstalled => leads_refresh_false delegate
    (append_nodeIds_subset nothing List.mem_cons_self) (List.subset_cons_self _ _) root graph
    uninstalled.1) fun _ => .pure fun left midway => ⟨rfl, ?_⟩
  rw [List.nil_append, nodeIds_touched] at midway
  exact midway

/-- Setting a limit clears the ids of its nodes and of those that depend on it, unless there is a
clash. -/
theorem leads_setting (delegate : String)
    (holder : ∃ node ∈ start.nodes, node.id = container ∧ node.kind.isContainer = true)
    (setting : Setting) :
    TimerChange.Leads
      (do
        .apply (·.updateNode activity (·.setAttribute setting.limit.attributeKey setting.raw))
        install delegate container activity setting
        refresh delegate container activity true setting.limit.dependents
        return Outcome.installed setting)
      (Midway start activity container [])
      (fun outcome left => outcome = .installed setting ∧
        Midway start activity container (nodeIds activity (touched setting.limit)) left)
      (Refused start activity container (touched setting.limit)
        (Clash start activity container (touched setting.limit))) := by
  have nothing : [] ⊆ nodeIds activity (touched setting.limit) := List.nil_subset _
  refine (leads_describe (·.insert setting.limit.attributeKey setting.raw) _).bind fun _ => ?_
  refine (leads_install delegate nothing holder List.mem_cons_self).bind fun _ => ?_
  refine (leads_refresh delegate (append_nodeIds_subset nothing List.mem_cons_self)
    (List.subset_cons_self _ _) holder).bind fun _ => .pure fun left midway => ⟨rfl, ?_⟩
  rw [List.nil_append, nodeIds_touched] at midway
  exact midway

end Steps

section Change

variable {start : Graph} {activity container : ElementId} (wellFormed : start.WellFormed)
include wellFormed

/-- What holds an activity is a container. -/
theorem exists_holder (owned : owningContainer start activity = .ok container) :
    ∃ node ∈ start.nodes, node.id = container ∧ node.kind.isContainer = true := by
  obtain ⟨node, found, _, parent⟩ := exists_of_owned owned
  exact wellFormed.parent_named (node_mem_elements.2 (mem_of_node? found)) parent

/-- A change of a limit is skipped and leaves the process as it is, or it clears the ids of the nodes
of the limit and of those that depend on it, unless there is a clash. -/
theorem leads_change (owned : owningContainer start activity = .ok container)
    (delegate : String) (limit : TimeLimit) (value : Option String) :
    (limit.change delegate activity value).Leads (· = start)
      (fun outcome left => (∃ obstacle, outcome = .skipped obstacle ∧ left = start) ∨
        (∀ obstacle, outcome ≠ .skipped obstacle) ∧
          Midway start activity container (nodeIds activity (touched limit)) left)
      (Refused start activity container (touched limit)
        (Clash start activity container (touched limit))) := by
  rintro graph rfl
  have initially : Midway graph activity container [] graph := .initially wellFormed
  rw [change_of_owned owned, changeIn]
  cases entered : Text.entered? value with
  | none =>
      refine (leads_clearing delegate limit fun id isPart isRoot => .root isPart isRoot).weaken ?_
        (fun _ _ stopped => stopped) graph initially
      rintro _ left ⟨rfl, midway⟩
      exact .inr ⟨nofun, midway⟩
  | some raw =>
      dsimp only
      cases derive (attributesOf graph activity) limit raw with
      | error obstacle => exact .inl ⟨obstacle, rfl, rfl⟩
      | ok expression =>
          refine (leads_setting delegate (exists_holder wellFormed owned)
            ⟨limit, raw, expression⟩).weaken ?_ (fun _ _ stopped => stopped) graph initially
          rintro _ left ⟨rfl, midway⟩
          exact .inr ⟨nofun, midway⟩

end Change

end TimeLimit

end BusinessProcess
