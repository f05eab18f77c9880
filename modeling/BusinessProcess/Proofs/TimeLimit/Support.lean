import BusinessProcess.Proofs.TimeLimit.Keep
import BusinessProcess.Proofs.TimeLimit.Restoration

/-!
# What boundary events rest on

The elements of time limits come from activities: from those of the start, or from service tasks of
other limits, which are activities themselves. An element stays in the container of the activity
that it goes back to. Every boundary event rests on an activity that is there, or on a service task,
which may be gone. Removals and additions of single elements keep this, wherever a change of several
steps stops.
-/

namespace BusinessProcess.TimeLimit

open BusinessProcess.Graph

/-- The id is that of the service task of a time limit. -/
def IsEscalation (id : ElementId) : Prop :=
  ∃ (limit : TimeLimit) (activity : ElementId), id = serviceId (limit.boundaryId activity)

/-- A process in which nothing looks like a part of a time limit. -/
structure Pristine (start : Graph) : Prop where
  wellFormed : start.WellFormed
  unended : ∀ id ∈ start.ids, hasEnding id = false
  unbound : ∀ node ∈ start.nodes, node.kind ≠ .event .boundary

/-- No node of the start is a part of a time limit, whatever the limit is set on. -/
theorem Pristine.id_ne {start : Graph} (pristine : Pristine start) {node : Node}
    (member : node ∈ start.nodes) (part : Part) (limit : TimeLimit) (activity : ElementId) :
    node.id ≠ part.id limit activity := by
  intro same
  have unended := pristine.unended _ (id_mem_of_node member)
  rw [same, covers_hasEnding activity limit part] at unended
  cases unended

/-! ## Activities and where they lie -/

/-- An activity with this id may be in the process, and it then has this parent. -/
inductive Host (start : Graph) : ElementId → Option ElementId → Prop where
  | start {node : Node} (member : node ∈ start.nodes) (isActivity : node.kind.isActivity = true) :
      Host start node.id node.parent
  | service {activity : ElementId} {parent : Option ElementId} (host : Host start activity parent)
      (limit : TimeLimit) : Host start (Part.service.id limit activity) parent

namespace Host

variable {start : Graph} {id : ElementId} {parent other : Option ElementId}

/-- An activity is one of the start or the service task of a limit of another activity. -/
theorem invert (host : Host start id parent) :
    (∃ node ∈ start.nodes, node.kind.isActivity = true ∧ node.id = id ∧ node.parent = parent) ∨
      ∃ limit activity, id = Part.service.id limit activity ∧ Host start activity parent := by
  cases host with
  | start member isActivity => exact .inl ⟨_, member, isActivity, rfl, rfl⟩
  | service host limit => exact .inr ⟨limit, _, rfl, host⟩

/-- The id of an activity determines its parent. -/
theorem unique (pristine : Pristine start) (first : Host start id parent)
    (second : Host start id other) : parent = other := by
  induction first generalizing other with
  | @start node member _ =>
      rcases second.invert with ⟨twin, twinMember, _, sameId, rfl⟩ | ⟨limit, activity, isPart, _⟩
      · rw [pristine.wellFormed.node_eq twinMember member sameId]
      · exact absurd isPart (pristine.id_ne member .service limit activity)
  | service _ limit inductionHypothesis =>
      rcases second.invert with ⟨node, member, _, isPart, _⟩ | ⟨_, _, same, rest⟩
      · exact absurd isPart (pristine.id_ne member .service limit _)
      · obtain ⟨_, _, rfl⟩ := Part.id_inj.1 same
        exact inductionHypothesis rest

end Host

/-! ## Where nodes come from -/

/-- A node was there at the start, or it is a part of a time limit of an activity. -/
inductive Origin (permitted : ElementId → Prop) (start : Graph) (node : Node) : Prop where
  | start {before : Node} (member : before ∈ start.nodes) (id : node.id = before.id)
      (kind : node.kind = before.kind) (parent : node.parent = before.parent)
  | event {limit : TimeLimit} {activity : ElementId} (isPermitted : permitted activity)
      (host : Host start activity node.parent) (id : node.id = Part.event.id limit activity)
      (kind : node.kind = .event .boundary)
      (attached : node.attributes.get? "attachedToRef" = some activity.text)
  | service {limit : TimeLimit} {activity : ElementId} (host : Host start activity node.parent)
      (id : node.id = Part.service.id limit activity) (kind : node.kind = .task .service)

namespace Origin

variable {permitted : ElementId → Prop} {start : Graph} {node : Node}

/-- An activity of the process is at home where it lies. -/
theorem host (origin : Origin permitted start node) (isActivity : node.kind.isActivity = true) :
    Host start node.id node.parent := by
  cases origin with
  | start member id kind parent =>
      rw [id, parent]
      exact .start member (kind ▸ isActivity)
  | event _ _ _ kind =>
      rw [kind] at isActivity
      cases isActivity
  | @service limit _ host id =>
      rw [id]
      exact .service host limit

/-- A node with the id of a part of a limit holds nothing. -/
theorem holdsNothing (origin : Origin permitted start node) (pristine : Pristine start)
    {part : Part} {limit : TimeLimit} {activity : ElementId}
    (isPart : node.id = part.id limit activity) : node.kind.isContainer = false := by
  cases origin with
  | start member id => exact absurd (id.symm.trans isPart) (pristine.id_ne member _ _ _)
  | event _ _ _ kind =>
      rw [kind]
      rfl
  | service _ _ kind =>
      rw [kind]
      rfl

/-- A boundary event is the event of a limit. -/
theorem exists_event (origin : Origin permitted start node) (pristine : Pristine start)
    (isBoundary : node.kind = .event .boundary) : ∃ limit activity, permitted activity ∧
      Host start activity node.parent ∧ node.id = Part.event.id limit activity ∧
        node.attributes.get? "attachedToRef" = some activity.text := by
  cases origin with
  | start member _ kind => exact absurd (kind.symm.trans isBoundary) (pristine.unbound _ member)
  | event isPermitted host id _ attached => exact ⟨_, _, isPermitted, host, id, attached⟩
  | service _ _ kind =>
      rw [kind] at isBoundary
      cases isBoundary

/-- A node with the id of the event of a limit lies beside its activity. -/
theorem host_of_event (origin : Origin permitted start node) (pristine : Pristine start)
    {limit : TimeLimit} {activity : ElementId} (isEvent : node.id = Part.event.id limit activity) :
    Host start activity node.parent := by
  cases origin with
  | start member id => exact absurd (id.symm.trans isEvent) (pristine.id_ne member _ _ _)
  | event _ host id =>
      obtain ⟨_, _, rfl⟩ := Part.id_inj.1 (id.symm.trans isEvent)
      exact host
  | service _ id =>
      cases (Part.id_inj.1 (id.symm.trans isEvent)).1

/-- A node with the id of a start activity lies where this activity lies. -/
theorem eq_of_start (origin : Origin permitted start node) (pristine : Pristine start)
    {before : Node} (member : before ∈ start.nodes) (sameId : node.id = before.id) :
    node.kind = before.kind ∧ node.parent = before.parent := by
  cases origin with
  | start otherMember id kind parent =>
      rw [pristine.wellFormed.node_eq member otherMember (sameId.symm.trans id)]
      exact ⟨kind, parent⟩
  | event _ _ id => exact absurd (sameId.symm.trans id) (pristine.id_ne member _ _ _)
  | service _ id => exact absurd (sameId.symm.trans id) (pristine.id_ne member _ _ _)

/-- A node with the id of an activity is one, and lies where that activity is at home. -/
theorem at_home (origin : Origin permitted start node) (pristine : Pristine start)
    {parent : Option ElementId} (host : Host start node.id parent) :
    node.kind.isActivity = true ∧ node.parent = parent := by
  have isActivity : node.kind.isActivity = true := by
    rcases host.invert with ⟨before, member, isActivity, sameId, _⟩ | ⟨limit, activity, isPart, _⟩
    · rw [(origin.eq_of_start pristine member sameId.symm).1]
      exact isActivity
    · cases origin with
      | start member id => exact absurd (id.symm.trans isPart) (pristine.id_ne member _ _ _)
      | event _ _ id => cases (Part.id_inj.1 (id.symm.trans isPart)).1
      | service _ _ kind =>
          rw [kind]
          rfl
  exact ⟨isActivity, (origin.host isActivity).unique pristine host⟩

end Origin

/-- Every node has an origin, and every boundary event of a time limit has its activity, unless that
is the service task of another limit. -/
structure Supported (permitted : ElementId → Prop) (start graph : Graph) : Prop where
  wellFormed : graph.WellFormed
  root : graph.root = start.root
  origin : ∀ {id : ElementId} {face : Node}, graph.face? id = some (.node face) →
    Origin permitted start face
  attached : ∀ {limit : TimeLimit} {activity : ElementId} {event : Node},
    graph.face? (Part.event.id limit activity) = some (.node event) →
      (∃ host, graph.face? activity = some (.node host)) ∨ IsEscalation activity

namespace Supported

variable {permitted : ElementId → Prop} {start graph : Graph}

theorem initially (pristine : Pristine start) : Supported permitted start start where
  wellFormed := pristine.wellFormed
  root := rfl
  origin := by
    intro id face shown
    obtain ⟨node, found, rfl⟩ := node?_of_face? shown
    exact .start (mem_of_node? found) rfl rfl rfl
  attached := by
    intro limit activity event shown
    obtain ⟨node, found, _⟩ := node?_of_face? shown
    exact absurd (id_of_node? found) (pristine.id_ne (mem_of_node? found) .event limit activity)

/-- What has the id of a part of a limit is not the root. -/
theorem part_ne_root (supported : Supported permitted start graph) (pristine : Pristine start)
    (part : Part) (limit : TimeLimit) (activity : ElementId) :
    part.id limit activity ≠ graph.root := by
  obtain ⟨root, rootMember, rootId, _⟩ := pristine.wellFormed.rooted
  rw [supported.root, ← rootId]
  exact (pristine.id_ne rootMember part limit activity).symm

/-! ## Removing -/

/-- An erasure keeps the process supported if it takes the events of an activity along with it. -/
theorem without (supported : Supported permitted start graph) {doomed : ElementId → Bool}
    (severable : graph.Severable doomed)
    (takes : ∀ {limit : TimeLimit} {activity : ElementId} {event host : Node},
      graph.face? (Part.event.id limit activity) = some (.node event) →
        graph.face? activity = some (.node host) → doomed activity = true →
          IsEscalation activity ∨ doomed (Part.event.id limit activity) = true) :
    Supported permitted start (graph.without doomed) where
  wellFormed := supported.wellFormed.without severable
  root := supported.root
  origin := by
    intro id face shown
    rw [face?_without] at shown
    split at shown
    next => cases shown
    next => exact supported.origin shown
  attached := by
    intro limit activity event shown
    rw [face?_without] at shown
    split at shown
    next => cases shown
    next kept =>
      rcases supported.attached shown with ⟨host, hostShown⟩ | isEscalation
      · cases gone : doomed activity with
        | true => exact .inr ((takes shown hostShown gone).resolve_right kept)
        | false =>
            refine .inl ⟨host, ?_⟩
            rw [face?_without, gone]
            exact hostShown
      · exact .inr isEscalation

/-- Removing a flow removes no node. -/
theorem removeFlow (supported : Supported permitted start graph) (id : ElementId) :
    Supported permitted start (graph.removeFlow id).2 ∧ ∀ {other : ElementId} {face : Node},
      (graph.removeFlow id).2.face? other = some (.node face) ↔
        graph.face? other = some (.node face) := by
  rcases supported.wellFormed.removeFlow_cases id with ⟨_, done⟩ | ⟨flow, member, rfl, done⟩
  · rw [done]
    exact ⟨supported, Iff.rfl⟩
  · have shown := face?_of_flow_mem supported.wellFormed.distinct member
    have notFlow : ∀ {other : ElementId} {face : Node},
        graph.face? other = some (.node face) → other ≠ flow.id := by
      rintro _ face isNode rfl
      cases shown.symm.trans isNode
    rw [done]
    constructor
    · refine supported.without (supported.wellFormed.severable_flow member) ?_
      intro limit activity event host _ hostShown gone
      exact absurd (of_decide_eq_true gone) (notFlow hostShown)
    · intro other face
      rw [face?_without]
      constructor
      · intro left
        split at left
        next => cases left
        next => exact left
      · intro isNode
        rw [if_neg (by simpa using notFlow isNode)]
        exact isNode

/-- A node may be removed if no event rests on it, or if it is a service task of a limit. -/
theorem removeNode (supported : Supported permitted start graph) (pristine : Pristine start)
    {node : Node} (member : node ∈ graph.nodes) (other : node.id ≠ graph.root)
    (free : ∀ {limit : TimeLimit} {event : Node},
      graph.face? (Part.event.id limit node.id) = some (.node event) → IsEscalation node.id) :
    Supported permitted start (graph.without (graph.doomedBy node.id)) := by
  have wellFormed := supported.wellFormed
  refine supported.without (wellFormed.severable_node member other) ?_
  intro limit activity event host eventShown hostShown gone
  obtain ⟨inner, innerFound, rfl⟩ := node?_of_face? hostShown
  obtain rfl := id_of_node? innerFound
  have innerMember := mem_of_node? innerFound
  have inSubtree := (doomedBy_node wellFormed innerMember node.id).1 gone
  obtain ⟨depth, within⟩ := (wellFormed.mem_subtree member).1 inSubtree
  obtain ⟨vertex, vertexFound, rfl⟩ := node?_of_face? eventShown
  have vertexMember := mem_of_node? vertexFound
  have vertexId := id_of_node? vertexFound
  rcases ((supported.origin eventShown).host_of_event pristine vertexId).invert with
    ⟨before, beforeMember, _, sameId, sameParent⟩ | ⟨further, below, isService, _⟩
  · -- The event lies beside the activity, so what holds the activity holds the event.
    obtain ⟨_, innerParent⟩ :=
      (supported.origin hostShown).eq_of_start pristine beforeMember sameId.symm
    have beside : vertex.parent = inner.parent := sameParent.symm.trans innerParent.symm
    rcases within.invert with ⟨_, isNode⟩ | ⟨further, container, held, heldMember, _, heldId,
      parent, outside⟩
    · rw [isNode] at eventShown ⊢
      exact .inl (free eventShown)
    · refine .inr ?_
      rw [← vertexId, doomedBy_node wellFormed vertexMember, wellFormed.mem_subtree member]
      rw [wellFormed.node_eq heldMember innerMember heldId] at parent
      exact ⟨further + 1, .inside outside vertexMember (beside.trans parent)⟩
  · rw [← serviceId_eq] at isService
    exact .inl ⟨further, below, isService⟩

/-- Removing a node that is a part of a limit removes this node alone. -/
theorem removePart (supported : Supported permitted start graph) (pristine : Pristine start)
    (part : Part) (limit : TimeLimit) (activity : ElementId) :
    ∃ removed left, graph.removeNode (part.id limit activity) = .ok (removed, left) ∧
      Supported permitted start left ∧ ∀ {other : ElementId} {face : Node},
        left.face? other = some (.node face) ↔
          other ≠ part.id limit activity ∧ graph.face? other = some (.node face) := by
  have wellFormed := supported.wellFormed
  rcases wellFormed.removeNode_cases (part.id limit activity) with
    ⟨isRoot, _⟩ | ⟨absent, done⟩ | ⟨node, member, isPart, notRoot, done⟩
  · exact absurd isRoot (supported.part_ne_root pristine part limit activity)
  · refine ⟨none, graph, done, supported, fun {other face} => ⟨fun shown => ⟨?_, shown⟩, And.right⟩⟩
    rintro rfl
    obtain ⟨node, found, _⟩ := node?_of_face? shown
    cases absent.symm.trans found
  · have shown := face?_of_node_mem wellFormed.distinct member
    have childless := wellFormed.childless_of_holdsNothing member
      ((supported.origin shown).holdsNothing pristine isPart)
    have alone : ∀ {other : ElementId} {face : Node}, graph.face? other = some (.node face) →
        (graph.doomedBy node.id other = true ↔ other = node.id) := by
      intro other face isNode
      obtain ⟨vertex, found, _⟩ := node?_of_face? isNode
      obtain rfl := id_of_node? found
      rw [doomedBy_node wellFormed (mem_of_node? found),
        wellFormed.mem_subtree_of_childless member childless]
    rw [← isPart] at done ⊢
    refine ⟨_, _, done, supported.removeNode pristine member notRoot ?_, fun {other face} => ?_⟩
    · -- An event rests on activities only, and among the parts these are the service tasks.
      intro further event eventShown
      obtain ⟨vertex, found, rfl⟩ := node?_of_face? eventShown
      have vertexId := id_of_node? found
      rcases ((supported.origin eventShown).host_of_event pristine vertexId).invert with
        ⟨before, beforeMember, _, sameId, _⟩ | ⟨last, below, isService, _⟩
      · exact absurd (sameId.trans isPart) (pristine.id_ne beforeMember part limit activity)
      · rw [← serviceId_eq] at isService
        exact ⟨last, below, isService⟩
    · rw [face?_without]
      constructor
      · intro left
        split at left
        next => cases left
        next kept => exact ⟨fun same => kept ((alone left).2 same), left⟩
      · rintro ⟨differs, isNode⟩
        rw [if_neg (mt (alone isNode).1 differs)]
        exact isNode

end Supported

end BusinessProcess.TimeLimit
