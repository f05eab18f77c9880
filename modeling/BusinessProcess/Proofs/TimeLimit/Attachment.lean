import BusinessProcess.Proofs.TimeLimit.Support

/-!
# Boundary events stay with their activities

Time limits may be changed on any elements, service tasks of other limits included, activities may
be removed with their limits, and all limits may be swept away. Afterwards every boundary event is
attached to an activity in its container, with one exception: a service task that carries limits of
its own is removed without them when the limit it belongs to is taken away.
-/

namespace BusinessProcess.TimeLimit

open BusinessProcess.Graph

section Steps

variable {permitted : ElementId → Prop} {start graph : Graph}

/-- An element is added where its id is free; an event must come to an activity that is there. -/
theorem Supported.adds (supported : Supported permitted start graph) {added : Graph}
    {face : Element} (adds : graph.Adds face added) (free : graph.face? face.id = none)
    (origin : ∀ node, face = .node node → Origin permitted start node)
    (attached : ∀ {limit : TimeLimit} {activity : ElementId} {event : Node},
      face = .node event → event.id = Part.event.id limit activity →
        ∃ host, graph.face? activity = some (.node host)) :
    Supported permitted start added where
  wellFormed := adds.wellFormed
  root := adds.root.trans supported.root
  origin := by
    intro id node shown
    rw [adds.faces] at shown
    split at shown
    next => exact origin node (Option.some.inj shown)
    next => exact supported.origin shown
  attached := by
    intro limit activity event shown
    rw [adds.faces] at shown
    split at shown
    next isAdded =>
      have isEvent := Option.some.inj shown
      obtain ⟨host, hostShown⟩ := attached isEvent (by
        rw [isAdded, isEvent]
        rfl)
      exact .inl ⟨host, adds.face?_of_shown free hostShown⟩
    next =>
      exact (supported.attached shown).imp_left fun ⟨host, hostShown⟩ =>
        ⟨host, adds.face?_of_shown free hostShown⟩

/-- The attributes of an activity have no part in where nodes come from. -/
theorem Supported.describe (supported : Supported permitted start graph) {activity : ElementId}
    {host : Node} (shown : graph.face? activity = some (.node host))
    (isActivity : host.kind.isActivity = true) (change : Attributes → Attributes) :
    Supported permitted start (graph.updateNode activity fun node =>
      { node with attributes := change node.attributes }) := by
  let view (node : Node) : Node := { node with attributes := change node.attributes }
  have faces : ∀ id, (graph.updateNode activity view).face? id =
      if id = activity then (graph.face? id).map (Element.mapNode view) else graph.face? id :=
    fun id => face?_updateNode graph activity id view (fun _ => rfl) fun _ => rfl
  have nodes : ∀ {id face}, graph.face? id = some (.node face) →
      ∃ later, (graph.updateNode activity view).face? id = some (.node later) := by
    intro id face found
    rw [faces, found]
    split
    next => exact ⟨view face, rfl⟩
    next => exact ⟨face, rfl⟩
  refine ⟨supported.wellFormed.of_sameShape (sameShape_updateNode graph activity fun _ => rfl),
    supported.root, ?_, ?_⟩
  · intro id face found
    rw [faces] at found
    split at found
    next isHere =>
      rw [isHere, shown] at found
      obtain rfl := Element.node.inj (Option.some.inj found)
      cases supported.origin shown with
      | start member sameId kind parent => exact .start member sameId kind parent
      | event _ _ _ kind =>
          rw [kind] at isActivity
          cases isActivity
      | service isHost sameId kind => exact .service isHost sameId kind
    next => exact supported.origin found
  · intro limit other event found
    have before : ∃ before, graph.face? (Part.event.id limit other) = some (.node before) := by
      rw [faces] at found
      split at found
      next isHere => exact ⟨host, isHere ▸ shown⟩
      next => exact ⟨event, found⟩
    obtain ⟨before, beforeShown⟩ := before
    exact (supported.attached beforeShown).imp_left fun ⟨_, hostShown⟩ => nodes hostShown

/-- The process is supported, and the activity lies in the container. -/
structure Carries (permitted : ElementId → Prop) (start : Graph) (activity container : ElementId)
    (graph : Graph) : Prop where
  supported : Supported permitted start graph
  host : ∃ host, graph.face? activity = some (.node host) ∧ host.kind.isActivity = true ∧
    host.parent = some container

namespace Carries

variable {activity container : ElementId}

/-- The activity is at home in the container. -/
theorem isHost (carries : Carries permitted start activity container graph) :
    Host start activity (some container) := by
  obtain ⟨host, shown, isActivity, parent⟩ := carries.host
  have home := (carries.supported.origin shown).host isActivity
  obtain ⟨node, found, rfl⟩ := node?_of_face? shown
  rw [parent, Node.id_face, id_of_node? found] at home
  exact home

/-- The activity stays where it is when a part of one of its limits is added. -/
theorem adds (carries : Carries permitted start activity container graph) {added : Graph}
    {face : Element} (adds : graph.Adds face added) (free : graph.face? face.id = none)
    (origin : ∀ node, face = .node node → Origin permitted start node)
    (attached : ∀ {limit : TimeLimit} {other : ElementId} {event : Node},
      face = .node event → event.id = Part.event.id limit other → other = activity) :
    Carries permitted start activity container added := by
  obtain ⟨host, shown, isActivity⟩ := carries.host
  refine ⟨carries.supported.adds adds free origin ?_, host, adds.face?_of_shown free shown,
    isActivity⟩
  intro limit other event isEvent eventId
  rw [attached isEvent eventId]
  exact ⟨host, shown⟩

end Carries

section Change

variable (pristine : Pristine start) {activity container : ElementId}

theorem keeps_describe (change : Attributes → Attributes) :
    TimerChange.Keeps (Carries permitted start activity container)
      (.apply (·.updateNode activity fun node =>
        { node with attributes := change node.attributes })) := by
  intro graph carries
  obtain ⟨host, shown, isActivity, parent⟩ := carries.host
  let view (node : Node) : Node := { node with attributes := change node.attributes }
  have face : (graph.updateNode activity view).face? activity =
      if activity = activity then (graph.face? activity).map (Element.mapNode view)
      else graph.face? activity :=
    face?_updateNode graph activity activity view (fun _ => rfl) fun _ => rfl
  rw [if_pos rfl, shown] at face
  exact ⟨carries.supported.describe shown isActivity change, view host, face, isActivity, parent⟩

include pristine

/-- Uninstalling a limit removes its service task and its event and no other node. -/
theorem Supported.uninstall (supported : Supported permitted start graph) (activity : ElementId)
    (limit : TimeLimit) : ∃ left, TimeLimit.uninstall activity limit graph = .ok () left ∧
      Supported permitted start left ∧ ∀ {other : ElementId} {face : Node},
        left.face? other = some (.node face) ↔ other ≠ Part.event.id limit activity ∧
          other ≠ Part.service.id limit activity ∧ graph.face? other = some (.node face) := by
  obtain ⟨flowless, flowFaces⟩ := supported.removeFlow (Part.flow.id limit activity)
  obtain ⟨service, middle, serviceGone, middleSupported, middleFaces⟩ :=
    flowless.removePart pristine .service limit activity
  obtain ⟨event, left, eventGone, leftSupported, leftFaces⟩ :=
    middleSupported.removePart pristine .event limit activity
  refine ⟨left, uninstall_eq_ok rfl serviceGone eventGone, leftSupported, ?_⟩
  intro other face
  rw [leftFaces, middleFaces, flowFaces]

theorem keeps_uninstall (limit : TimeLimit) :
    TimerChange.Keeps (Carries permitted start activity container) (uninstall activity limit) := by
  intro graph carries
  obtain ⟨left, done, supported, faces⟩ := carries.supported.uninstall pristine activity limit
  obtain ⟨host, shown, isActivity⟩ := carries.host
  rw [TimerChange.left, done]
  refine ⟨supported, host, faces.2 ⟨?_, ?_, shown⟩, isActivity⟩
  · exact (Part.id_ne_self .event limit activity).symm
  · exact (Part.id_ne_self .service limit activity).symm

/-- Installing a limit adds parts that come from the activity. -/
theorem keeps_install (isPermitted : permitted activity) (delegate : String) (setting : Setting) :
    TimerChange.Keeps (Carries permitted start activity container)
      (install delegate container activity setting) := by
  refine (keeps_uninstall pristine setting.limit).bind fun _ => ?_
  refine (TimerChange.Keeps.attempt fun graph added carries done => ?_).bind fun _ => ?_
  · obtain ⟨free, adds⟩ := carries.supported.wellFormed.adds_of_addNode rfl done
    refine carries.adds adds free ?_ ?_
    · rintro node isEvent
      obtain rfl := Element.node.inj isEvent
      exact .event isPermitted carries.isHost rfl rfl rfl
    · rintro limit other event isEvent eventId
      obtain rfl := Element.node.inj isEvent
      exact (Part.id_inj.1 (show Part.event.id setting.limit activity = _ from eventId)).2.2.symm
  refine (TimerChange.Keeps.attempt fun graph added carries done => ?_).bind fun _ => ?_
  · obtain ⟨free, adds⟩ := carries.supported.wellFormed.adds_of_addNode rfl done
    refine carries.adds adds free ?_ ?_
    · rintro node isService
      obtain rfl := Element.node.inj isService
      exact .service carries.isHost (serviceId_eq _ _) rfl
    · rintro limit other event isService eventId
      obtain rfl := Element.node.inj isService
      have same : Part.service.id setting.limit activity = Part.event.id limit other :=
        (serviceId_eq _ _).symm.trans eventId
      cases (Part.id_inj.1 same).1
  refine TimerChange.Keeps.attempt fun graph added carries done => ?_
  obtain ⟨free, adds⟩ := carries.supported.wellFormed.adds_of_addFlow done
  exact carries.adds adds free (fun _ isNode => by cases isNode) fun isNode => by cases isNode

omit pristine in
/-- The container that owns the parts of a limit carries the activity. -/
theorem Supported.carries (supported : Supported permitted start graph)
    (owning : owningContainer graph activity = .ok container) :
    Carries permitted start activity container graph := by
  unfold owningContainer at owning
  split at owning
  next => cases owning
  next host found =>
    split at owning
    next isActivity =>
      split at owning
      next held =>
        cases owning
        obtain rfl := id_of_node? found
        exact ⟨supported, host.face,
          face?_of_node_mem supported.wellFormed.distinct (mem_of_node? found), isActivity, held⟩
      next => cases owning
    next => cases owning

/-- A change of a time limit keeps the process supported. -/
theorem keeps_change (isPermitted : permitted activity) (delegate : String) (limit : TimeLimit)
    (value : Option String) :
    TimerChange.Keeps (Supported permitted start) (limit.change delegate activity value) :=
  keeps_change_of (fun _ _ supported owning => supported.carries owning)
    (fun _ _ carries => carries.supported) (fun _ => keeps_describe)
    (fun _ => keeps_uninstall pristine) (fun _ => keeps_install pristine isPermitted delegate)
    limit value

/-- Removing an activity takes the events of its limits along, whatever the id stands for. -/
theorem keeps_removeActivity (activity : ElementId) :
    TimerChange.Keeps (Supported permitted start) (removeActivity activity) := by
  intro graph supported
  obtain ⟨first, deadlineGone, firstSupported, firstFaces⟩ :=
    supported.uninstall pristine activity .deadline
  obtain ⟨second, warningGone, secondSupported, secondFaces⟩ :=
    firstSupported.uninstall pristine activity .firstWarning
  obtain ⟨third, loopGone, thirdSupported, thirdFaces⟩ :=
    secondSupported.uninstall pristine activity .loopWarning
  have bare : ∀ {limit : TimeLimit} {event : Node},
      third.face? (Part.event.id limit activity) ≠ some (.node event) := by
    intro limit event shown
    obtain ⟨notLoop, _, inSecond⟩ := thirdFaces.1 shown
    obtain ⟨notWarning, _, inFirst⟩ := secondFaces.1 inSecond
    obtain ⟨notDeadline, _⟩ := firstFaces.1 inFirst
    cases limit with
    | deadline => exact notDeadline rfl
    | firstWarning => exact notWarning rfl
    | loopWarning => exact notLoop rfl
  rw [TimerChange.left, removeActivity_eq deadlineGone warningGone loopGone,
    TimerChange.removeNode]
  rcases thirdSupported.wellFormed.removeNode_cases activity with ⟨_, done⟩ | ⟨_, done⟩ |
    ⟨node, member, rfl, notRoot, done⟩
  · rw [done]
    exact thirdSupported
  · rw [done]
    exact thirdSupported
  · rw [done]
    exact thirdSupported.removeNode pristine member notRoot fun shown => absurd shown bare

/-- A node that the sweep recognizes has the id of a part of a limit. -/
theorem Supported.exists_part (supported : Supported permitted start graph) {node : Node}
    (member : node ∈ graph.nodes) (isLimit : isLimitNode node = true) :
    ∃ (part : Part) (limit : TimeLimit) (activity : ElementId),
      node.id = part.id limit activity := by
  have shown := face?_of_node_mem supported.wellFormed.distinct member
  cases supported.origin shown with
  | start startMember id =>
      have unended := pristine.unended _ (id_mem_of_node startMember)
      rw [← id, Node.id_face, hasEnding_of_isLimitNode isLimit] at unended
      cases unended
  | event _ _ id => exact ⟨.event, _, _, id⟩
  | service _ id => exact ⟨.service, _, _, id⟩

omit pristine in
theorem keeps_sweepFlows (ids : List ElementId) :
    TimerChange.Keeps (Supported permitted start) (sweepFlows ids) := by
  induction ids with
  | nil => exact .pure _
  | cons id rest inductionHypothesis =>
      have first : TimerChange.Keeps (Supported permitted start) (TimerChange.removeFlow id) :=
        fun _ supported => (supported.removeFlow id).1
      exact first.bind fun _ => inductionHypothesis.bind fun _ => .pure _

theorem keeps_sweepNodes {ids : List ElementId}
    (parts : ∀ id ∈ ids, ∃ (part : Part) (limit : TimeLimit) (activity : ElementId),
      id = part.id limit activity) :
    TimerChange.Keeps (Supported permitted start) (sweepNodes ids) := by
  induction ids with
  | nil => exact .pure _
  | cons id rest inductionHypothesis =>
      obtain ⟨part, limit, activity, rfl⟩ := parts id List.mem_cons_self
      have first : TimerChange.Keeps (Supported permitted start)
          (TimerChange.removeNode (part.id limit activity)) := by
        intro graph supported
        obtain ⟨removed, left, done, leftSupported, _⟩ :=
          supported.removePart pristine part limit activity
        rw [TimerChange.left, TimerChange.removeNode, done]
        exact leftSupported
      have others := inductionHypothesis fun other later =>
        parts other (List.mem_cons_of_mem _ later)
      exact first.bind fun _ => others.bind fun _ => .pure _

/-- The sweep keeps the process supported. -/
theorem keeps_sweep : TimerChange.Keeps (Supported permitted start) sweep := by
  intro graph supported
  rw [TimerChange.left, sweep, TimerChange.bind_of_ok (TimerChange.get_eq graph)]
  refine (keeps_sweepFlows _).bind (fun _ => (keeps_sweepNodes pristine ?_).bind fun _ => .pure _)
    graph supported
  intro id isListed
  obtain ⟨node, isSwept, rfl⟩ := List.mem_map.1 isListed
  obtain ⟨member, isLimit⟩ := List.mem_filter.1 isSwept
  exact supported.exists_part pristine member isLimit

end Change

end Steps

/-! ## The run as a whole -/

/-- The processes that changes of time limits, removals of activities with their limits and sweeps
lead to, on whatever elements and whatever they answer. Limits are changed on permitted elements
only. -/
inductive Managed (permitted : ElementId → Prop) (start : Graph) : Graph → Prop where
  | start : Managed permitted start start
  | change {graph : Graph} (managed : Managed permitted start graph) (activity : ElementId)
      (isPermitted : permitted activity) (delegate : String) (limit : TimeLimit)
      (value : Option String) :
      Managed permitted start ((limit.change delegate activity value).left graph)
  | removeActivity {graph : Graph} (managed : Managed permitted start graph)
      (activity : ElementId) :
      Managed permitted start ((TimeLimit.removeActivity activity).left graph)
  | sweep {graph : Graph} (managed : Managed permitted start graph) :
      Managed permitted start (TimeLimit.sweep.left graph)

/-- The event is attached to an activity of the process that lies in the same container. -/
def Attached (graph : Graph) (event : Node) : Prop :=
  ∃ activity, graph.node? activity.id = some activity ∧ activity.kind.isActivity = true ∧
    activity.parent = event.parent ∧
    event.attributes.get? "attachedToRef" = some activity.id.text

/-- The event is attached to the service task of a time limit, one that limits may be changed on,
and this service task is gone. -/
def Orphaned (permitted : ElementId → Prop) (graph : Graph) (event : Node) : Prop :=
  ∃ service, graph.node? service = none ∧ permitted service ∧ IsEscalation service ∧
    event.attributes.get? "attachedToRef" = some service.text

/-- What an attached event names is there. -/
theorem Attached.node?_ne_none {graph : Graph} {event : Node} (attached : Attached graph event)
    {text : String} (named : event.attributes.get? "attachedToRef" = some text) :
    graph.node? ⟨text⟩ ≠ none := by
  obtain ⟨activity, found, _, _, alsoNamed⟩ := attached
  have same : activity.id = ⟨text⟩ :=
    congrArg ElementId.mk (Option.some.inj (alsoNamed.symm.trans named))
  rw [← same, found]
  exact Option.some_ne_none activity

/-- An event that is attached to an activity has not lost its service task. -/
theorem Attached.not_orphaned {permitted : ElementId → Prop} {graph : Graph} {event : Node}
    (attached : Attached graph event) : ¬ Orphaned permitted graph event := by
  rintro ⟨service, absent, _, _, named⟩
  exact attached.node?_ne_none named absent

theorem Managed.supported {permitted : ElementId → Prop} {start graph : Graph}
    (pristine : Pristine start) (managed : Managed permitted start graph) :
    Supported permitted start graph := by
  induction managed with
  | start => exact .initially pristine
  | change _ activity isPermitted delegate limit value inductionHypothesis =>
      exact keeps_change pristine isPermitted delegate limit value _ inductionHypothesis
  | removeActivity _ activity inductionHypothesis =>
      exact keeps_removeActivity pristine activity _ inductionHypothesis
  | sweep _ inductionHypothesis => exact keeps_sweep pristine _ inductionHypothesis

/-- However time limits of a reached process without boundary events were changed, removed with
their activities and swept away: a boundary event is attached to an activity in its container,
except where limits were changed on the service task of a limit and this service task is gone. -/
theorem Managed.attached_iff {policy : Policy} {root : ElementId} {ledger : Ledger}
    (reached : Reached policy root ledger)
    (unended : ∀ id ∈ ledger.graph.ids, hasEnding id = false)
    (unbound : ∀ node ∈ ledger.graph.nodes, node.kind ≠ .event .boundary)
    {permitted : ElementId → Prop} {graph : Graph} (managed : Managed permitted ledger.graph graph)
    {event : Node} (member : event ∈ graph.nodes) (isBoundary : event.kind = .event .boundary) :
    Attached graph event ↔ ¬ Orphaned permitted graph event := by
  have pristine : Pristine ledger.graph := ⟨reached.sound.wellFormed, unended, unbound⟩
  have supported := managed.supported pristine
  have distinct := supported.wellFormed.distinct
  have shown := face?_of_node_mem distinct member
  obtain ⟨limit, activity, isPermitted, host, isEvent, named⟩ :=
    (supported.origin shown).exists_event pristine isBoundary
  refine ⟨Attached.not_orphaned, fun notOrphaned => ?_⟩
  cases found : graph.node? activity with
  | none =>
      rw [show event.id = Part.event.id limit activity from isEvent] at shown
      rcases supported.attached shown with ⟨_, hostShown⟩ | isEscalation
      · obtain ⟨node, present, _⟩ := node?_of_face? hostShown
        cases found.symm.trans present
      · exact absurd ⟨activity, found, isPermitted, isEscalation, named⟩ notOrphaned
  | some node =>
      obtain rfl := id_of_node? found
      have nodeShown := face?_of_node_mem distinct (mem_of_node? found)
      obtain ⟨isActivity, parent⟩ := (supported.origin nodeShown).at_home pristine host
      exact ⟨node, found, isActivity, parent, named⟩

/-- While a task and the service task of its deadline both carry limits, and after the deadline of
the task was changed, every boundary event is attached. -/
theorem attached_of_nested : ∃ graph, Managed (fun _ => True) soleTask.graph graph ∧
    graph.ids = [⟨"P"⟩, ⟨"T"⟩, ⟨"T_overtime_service_overtime"⟩,
      ⟨"T_overtime_service_overtime_service"⟩, ⟨"T_overtime"⟩, ⟨"T_overtime_service"⟩,
      ⟨"T_overtime_service_overtime_service_flow"⟩, ⟨"T_overtime_service_flow"⟩] ∧
    ∀ event ∈ graph.nodes, event.kind = .event .boundary → Attached graph event := by
  -- Every id that an event is attached to is that of a node, so no service task is missing.
  have attached : ∀ {graph : Graph}, Managed (fun _ => True) soleTask.graph graph →
      (∀ event ∈ graph.nodes, event.kind = .event .boundary →
        (event.attributes.get? "attachedToRef").all fun text => (graph.node? ⟨text⟩).isSome) →
      ∀ event ∈ graph.nodes, event.kind = .event .boundary → Attached graph event := by
    intro graph managed present event member isBoundary
    refine (managed.attached_iff (reached_soleTask ⟨true, true⟩) (by decide) (by decide) member
      isBoundary).2 ?_
    rintro ⟨service, absent, _, _, named⟩
    have found := present event member isBoundary
    rw [named, Option.all_some, absent] at found
    cases found
  have managed := ((Managed.start.change ⟨"T"⟩ trivial "delegate" .deadline (some "2H")).change
    ⟨"T_overtime_service"⟩ trivial "delegate" .deadline (some "1H") :
      Managed (fun _ => True) soleTask.graph _).change ⟨"T"⟩ trivial "delegate" .deadline
        (some "3H")
  exact ⟨_, managed, by decide +kernel, attached managed (by decide +kernel)⟩

/-- A deadline on the service task of a deadline is left without its activity when that one is
cleared. -/
theorem not_attached_of_cleared : Reached ⟨false, false⟩ ⟨"P"⟩ soleTask ∧
    (∀ id ∈ soleTask.graph.ids, hasEnding id = false) ∧
    (∀ node ∈ soleTask.graph.nodes, node.incoming = [] ∧ node.outgoing = []) ∧
    (∀ node ∈ soleTask.graph.nodes, node.kind ≠ .event .boundary) ∧
    ∃ graph, Managed (fun _ => True) soleTask.graph graph ∧
      ∃ event ∈ graph.nodes, event.kind = .event .boundary ∧ ¬ Attached graph event := by
  have managed := ((Managed.start.change ⟨"T"⟩ trivial "delegate" .deadline (some "2H")).change
    ⟨"T_overtime_service"⟩ trivial "delegate" .deadline (some "1H") :
      Managed (fun _ => True) soleTask.graph _).change ⟨"T"⟩ trivial "delegate" .deadline none
  let event : Node :=
    { boundaryEvent ⟨"T_overtime_service"⟩ ⟨.deadline, "1H", ⟨.duration, "PT1H"⟩⟩ with
      parent := some ⟨"P"⟩
      outgoing := [⟨"T_overtime_service_overtime_service_flow"⟩] }
  exact ⟨reached_soleTask _, by decide, by decide, by decide, _, managed, event,
    by decide +kernel, rfl, fun attached => attached.node?_ne_none rfl (by decide +kernel)⟩

end BusinessProcess.TimeLimit
