import BusinessProcess.Proofs.TimeLimit.Core
import BusinessProcess.Proofs.TimeLimit.Simulation

/-!
# Time limits as a layer over the core

Elements of time limits need not belong to an activity that is still there: a service task of one
limit may itself carry limits, and their elements stay when it is removed. Wherever they come from,
the elements of reserved ids form a layer of their own over the core of the process. Every step of a
change of time limits adds to this layer or takes from it and leaves the core as it is.
-/

namespace BusinessProcess.TimeLimit

open BusinessProcess.Graph

/-- A node of a time limit refers at most to the flow of its limit, on one side, and to that only
if it is drawn. -/
inductive LimitNode (graph : Graph) (node : Node) : Prop where
  | event {limit : TimeLimit} {activity : ElementId} (id : node.id = Part.event.id limit activity)
      (kind : node.kind = .event .boundary) (definitions : node.definitions.length ≤ 1)
      (incoming : node.incoming = [])
      (outgoing : node.outgoing.Sublist [Part.flow.id limit activity])
      (drawn : ∀ reference ∈ node.outgoing, graph.joins reference node.id = true)
  | service {limit : TimeLimit} {activity : ElementId}
      (id : node.id = Part.service.id limit activity) (kind : node.kind = .task .service)
      (incoming : node.incoming.Sublist [Part.flow.id limit activity])
      (outgoing : node.outgoing = [])

/-- A flow of a time limit has no condition and joins nodes of reserved ids. -/
structure LimitFlow (reserved : ElementId → Bool) (flow : SequenceFlow) : Prop where
  id : ∃ limit activity, flow.id = Part.flow.id limit activity
  condition : flow.condition = none
  notDefault : flow.isDefault = false
  source : reserved flow.source = true
  target : reserved flow.target = true

theorem LimitFlow.endsWith {reserved : ElementId → Bool} {flow : SequenceFlow}
    (limitFlow : LimitFlow reserved flow) : flow.id.endsWith serviceFlowEnding = true := by
  obtain ⟨limit, activity, isFlow⟩ := limitFlow.id
  rw [isFlow, ← serviceFlowId_eq]
  exact ElementId.endsWith_withEnding _ _

/-- The elements of reserved ids are elements of time limits, and no other flow joins them. -/
structure Layered (reserved : ElementId → Bool) (graph : Graph) : Prop where
  wellFormed : graph.WellFormed
  root : reserved graph.root = false
  nodes : ∀ node ∈ graph.nodes, reserved node.id = true → LimitNode graph node
  flows : ∀ flow ∈ graph.flows, reserved flow.id = true → LimitFlow reserved flow
  loose : ∀ flow ∈ graph.flows, reserved flow.id = false →
    reserved flow.source = false ∧ reserved flow.target = false

/-- The second process differs from the first one in the elements of time limits only. -/
structure Overlays (reserved : ElementId → Bool) (graph later : Graph) : Prop where
  layered : Layered reserved later
  core_eq : later.core reserved = graph.core reserved

/-- Elements of reserved ids were erased, those of the given ids among them. -/
structure Erased (reserved : ElementId → Bool) (graph : Graph) (gone : List ElementId)
    (left : Graph) : Prop where
  overlays : Overlays reserved graph left
  ids : ∀ id ∈ left.ids, id ∈ graph.ids ∧ id ∉ gone

section Steps

variable {reserved : ElementId → Bool} {graph middle later : Graph}

theorem Overlays.trans (first : Overlays reserved graph middle)
    (second : Overlays reserved middle later) : Overlays reserved graph later :=
  ⟨second.layered, second.core_eq.trans first.core_eq⟩

/-- A node outside the layer is still there, of the same kind. -/
theorem Overlays.exists_node (overlays : Overlays reserved graph later) {node : Node}
    (member : node ∈ graph.nodes) (unreserved : reserved node.id = false) :
    ∃ held, later.node? node.id = some held ∧ held.kind = node.kind := by
  have shown : graph.coreNode reserved node ∈ (later.core reserved).nodes := by
    rw [overlays.core_eq]
    exact mem_nodes_core.2 ⟨node, member, unreserved, rfl⟩
  obtain ⟨held, present, _, same⟩ := mem_nodes_core.1 shown
  have sameId := congrArg Node.id same
  have sameKind := congrArg Node.kind same
  rw [id_coreNode, id_coreNode] at sameId
  rw [kind_coreNode, kind_coreNode] at sameKind
  rw [← sameId]
  exact ⟨held, node?_of_mem overlays.layered.wellFormed.distinct present, sameKind⟩

theorem Layered.overlays_self (layered : Layered reserved graph) : Overlays reserved graph graph :=
  ⟨layered, rfl⟩

theorem Erased.trans {gone more : List ElementId} (first : Erased reserved graph gone middle)
    (second : Erased reserved middle more later) : Erased reserved graph (gone ++ more) later where
  overlays := first.overlays.trans second.overlays
  ids := by
    intro id used
    obtain ⟨usedMiddle, notMore⟩ := second.ids id used
    obtain ⟨usedBefore, notGone⟩ := first.ids id usedMiddle
    exact ⟨usedBefore, fun either => (List.mem_append.1 either).elim notGone notMore⟩

/-- Where no id is reserved there is no layer yet. -/
theorem Layered.initially (wellFormed : graph.WellFormed)
    (unreserved : ∀ id ∈ graph.ids, reserved id = false) : Layered reserved graph where
  wellFormed := wellFormed
  root := by
    obtain ⟨root, member, rootId, _⟩ := wellFormed.rooted
    rw [← rootId]
    exact unreserved _ (id_mem_of_node member)
  nodes := by
    intro node member isReserved
    rw [unreserved _ (id_mem_of_node member)] at isReserved
    cases isReserved
  flows := by
    intro flow member isReserved
    rw [unreserved _ (id_mem_of_flow member)] at isReserved
    cases isReserved
  loose := by
    intro flow member _
    obtain ⟨⟨source, sourceMember, sourceId⟩, target, targetMember, targetId⟩ :=
      wellFormed.joined flow member
    rw [← sourceId, ← targetId]
    exact ⟨unreserved _ (id_mem_of_node sourceMember),
      unreserved _ (id_mem_of_node targetMember)⟩

/-! ## Nodes of time limits -/

/-- A node of a time limit stays one as long as what it shows of itself and what it refers to stay
the same. -/
theorem LimitNode.transfer {node left : Node} (limitNode : LimitNode graph node)
    (id : left.id = node.id) (kind : left.kind = node.kind)
    (definitions : left.definitions = node.definitions) (incoming : left.incoming = node.incoming)
    (outgoing : left.outgoing = node.outgoing)
    (joined : ∀ reference, graph.joins reference node.id = true →
      later.joins reference node.id = true) : LimitNode later left := by
  cases limitNode with
  | event isEvent isBoundary single nothing only drawn =>
      refine .event (id.trans isEvent) (kind.trans isBoundary) (definitions ▸ single)
        (incoming.trans nothing) (outgoing ▸ only) fun reference referred => ?_
      rw [id]
      exact joined reference (drawn reference (outgoing ▸ referred))
  | service isService isTask only nothing =>
      exact .service (id.trans isService) (kind.trans isTask) (incoming ▸ only)
        (outgoing.trans nothing)

/-- A node of a time limit stays one when elements around it are erased. -/
theorem LimitNode.prune {node : Node} (limitNode : LimitNode graph node)
    (doomed : ElementId → Bool) : LimitNode (graph.without doomed) (graph.prune doomed node) := by
  cases limitNode with
  | event isEvent isBoundary single nothing only drawn =>
      refine .event isEvent isBoundary single ?_ (List.filter_sublist.trans only) ?_
      · rw [Graph.prune, nothing, List.filter_nil]
      · intro reference kept
        obtain ⟨referred, keeps⟩ := List.mem_filter.1 kept
        have joined := drawn reference referred
        rw [joins_without, prune_id, joined, Bool.and_true]
        simpa [joined] using keeps
  | service isService isTask only nothing =>
      refine .service isService isTask (List.filter_sublist.trans only) ?_
      rw [Graph.prune, nothing, List.filter_nil]

theorem LimitNode.holdsNothing {node : Node} (limitNode : LimitNode graph node) :
    node.kind.isContainer = false := by
  cases limitNode with
  | event _ kind => rw [kind]; rfl
  | service _ kind => rw [kind]; rfl

namespace Layered

variable (layered : Layered reserved graph)
include layered

/-- The id of a flow of a time limit is that of no node. -/
theorem node?_flow {limit : TimeLimit} {activity : ElementId}
    (isReserved : reserved (Part.flow.id limit activity) = true) :
    graph.node? (Part.flow.id limit activity) = none := by
  cases found : graph.node? (Part.flow.id limit activity) with
  | none => rfl
  | some node =>
      have sameId := id_of_node? found
      rcases layered.nodes node (mem_of_node? found) (sameId ▸ isReserved) with
        ⟨isEvent⟩ | ⟨isService⟩
      · exact nomatch (Part.id_inj.1 (sameId.symm.trans isEvent)).1
      · exact nomatch (Part.id_inj.1 (sameId.symm.trans isService)).1

/-- The id of an event or a service task of a time limit is that of no flow. -/
theorem flow?_node {part : Part} (isNode : part ≠ .flow) {limit : TimeLimit} {activity : ElementId}
    (isReserved : reserved (part.id limit activity) = true) :
    graph.flow? (part.id limit activity) = none := by
  cases found : graph.flow? (part.id limit activity) with
  | none => rfl
  | some flow =>
      have sameId := id_of_flow? found
      obtain ⟨_, _, isFlow⟩ := (layered.flows flow (mem_of_flow? found) (sameId ▸ isReserved)).id
      exact absurd (Part.id_inj.1 (sameId.symm.trans isFlow)).1 isNode

/-- A container that is a parent has no reserved id. -/
theorem container_unreserved {node : Node} (member : node ∈ graph.nodes)
    (isContainer : node.kind.isContainer = true) : reserved node.id = false := by
  cases isReserved : reserved node.id with
  | false => rfl
  | true =>
      rw [(layered.nodes node member isReserved).holdsNothing] at isContainer
      cases isContainer

/-! ## Erasing -/

/-- Erasing elements of the layer leaves the core. -/
theorem without {doomed : ElementId → Bool} (within : ∀ id, doomed id = true → reserved id = true)
    (severable : graph.Severable doomed) : Overlays reserved graph (graph.without doomed) where
  core_eq := core_without within
  layered := {
    wellFormed := layered.wellFormed.without severable
    root := layered.root
    nodes := by
      intro node member isReserved
      obtain ⟨before, present, _, rfl⟩ := mem_nodes_without.1 member
      exact (layered.nodes before present isReserved).prune doomed
    flows := fun flow member => layered.flows flow (mem_flows_without.1 member).1
    loose := fun flow member => layered.loose flow (mem_flows_without.1 member).1 }

/-- Removing a flow of a time limit erases it, if it is there. -/
theorem removeFlow {limit : TimeLimit} {activity : ElementId}
    (isReserved : reserved (Part.flow.id limit activity) = true) :
    ∃ removed left, graph.removeFlow (Part.flow.id limit activity) = (removed, left) ∧
      Erased reserved graph [Part.flow.id limit activity] left := by
  rcases layered.wellFormed.removeFlow_cases (Part.flow.id limit activity) with
    ⟨absent, removed⟩ | ⟨flow, member, sameId, removed⟩
  · refine ⟨_, _, removed, layered.overlays_self, fun id used => ⟨used, ?_⟩⟩
    rw [List.mem_singleton]
    rintro rfl
    rw [← contains_iff, contains, absent, layered.node?_flow isReserved] at used
    cases used
  · refine ⟨_, _, removed, ?_, fun id used => ?_⟩
    · rw [← sameId]
      refine layered.without (fun id isFlow => ?_) (layered.wellFormed.severable_flow member)
      rw [of_decide_eq_true isFlow, sameId, isReserved]
    · rw [ids_without] at used
      simpa using used

/-- Nothing goes with a node of the layer but what is in the layer. -/
theorem reserved_of_doomed {node : Node} (member : node ∈ graph.nodes)
    (isReserved : reserved node.id = true) (id : ElementId)
    (doomed : graph.doomedBy node.id id = true) : reserved id = true := by
  have wellFormed := layered.wellFormed
  have childless := wellFormed.childless_of_holdsNothing member
    (layered.nodes node member isReserved).holdsNothing
  rcases Bool.or_eq_true_iff.1 doomed with below | touching
  · rw [List.contains_iff_mem, wellFormed.mem_subtree_of_childless member childless] at below
    rw [below, isReserved]
  · obtain ⟨flow, touches, rfl⟩ := List.mem_map.1 (List.contains_iff_mem.1 touching)
    obtain ⟨drawn, touched⟩ := List.mem_filter.1 touches
    by_contra unreserved
    obtain ⟨source, target⟩ := layered.loose flow drawn (Bool.eq_false_iff.2 unreserved)
    rcases wellFormed.touches_of_childless member childless drawn touched with
      isSource | isTarget
    · exact ne_of_reserved isReserved source isSource.symm
    · exact ne_of_reserved isReserved target isTarget.symm

/-- Removing a node of a time limit erases it, if it is there, with the flows that it joins. -/
theorem removeNode {part : Part} (isNode : part ≠ .flow) {limit : TimeLimit}
    {activity : ElementId} (isReserved : reserved (part.id limit activity) = true) :
    ∃ removed left, graph.removeNode (part.id limit activity) = .ok (removed, left) ∧
      Erased reserved graph [part.id limit activity] left := by
  have wellFormed := layered.wellFormed
  rcases wellFormed.removeNode_cases (part.id limit activity) with
    ⟨isRoot, _⟩ | ⟨absent, removed⟩ | ⟨node, member, sameId, notRoot, removed⟩
  · exact absurd isRoot (ne_of_reserved isReserved layered.root)
  · refine ⟨_, _, removed, layered.overlays_self, fun id used => ⟨used, ?_⟩⟩
    rw [List.mem_singleton]
    rintro rfl
    rw [← contains_iff, contains, absent, layered.flow?_node isNode isReserved] at used
    cases used
  · rw [← sameId] at isReserved removed ⊢
    have within := layered.reserved_of_doomed member isReserved
    refine ⟨_, _, removed, layered.without within (wellFormed.severable_node member notRoot),
      fun id used => ?_⟩
    rw [ids_without, List.mem_filter] at used
    refine ⟨used.1, ?_⟩
    rw [List.mem_singleton]
    rintro rfl
    rw [wellFormed.doomedBy_self member] at used
    exact absurd used.2 Bool.false_ne_true

/-! ## Adding and linking -/

/-- A change that only describes a node leaves the core if it is not seen there and keeps nodes of
time limits what they are. -/
theorem updateNode {id : ElementId} {change : Node → Node}
    (shape : ∀ node, (change node).shape = node.shape)
    (core_eq : (graph.updateNode id change).core reserved = graph.core reserved)
    (keeps : reserved id = true → ∀ node ∈ graph.nodes, node.id = id → LimitNode graph node →
      LimitNode graph (change node)) : Overlays reserved graph (graph.updateNode id change) where
  core_eq := core_eq
  layered := {
    wellFormed := layered.wellFormed.of_sameShape (sameShape_updateNode graph id shape)
    root := layered.root
    nodes := by
      intro node member isReserved
      obtain ⟨before, present, rfl⟩ := List.mem_map.1 member
      split at isReserved
      next isHere =>
        have sameId : (change before).id = before.id := (Node.alike_of_shape (shape before)).id
        rw [sameId] at isReserved
        rw [if_pos isHere]
        have limitNode := keeps (isHere ▸ isReserved) before present isHere
          (layered.nodes before present isReserved)
        exact limitNode.transfer rfl rfl rfl rfl rfl fun _ joined => joined
      next elsewhere =>
        rw [if_neg elsewhere]
        have limitNode := layered.nodes before present isReserved
        exact limitNode.transfer rfl rfl rfl rfl rfl fun _ joined => joined
    flows := layered.flows
    loose := layered.loose }

/-- Adding a node of a time limit leaves the core. -/
theorem addNode {parent : ElementId} {node : Node} (isReserved : reserved node.id = true)
    (limitNode : LimitNode graph node) (empty : node.children = [])
    (done : graph.addNode parent node = .ok later) : Overlays reserved graph later := by
  have wellFormed := layered.wellFormed.addNode empty done
  obtain ⟨_, rfl⟩ := addNode_eq_ok done
  refine ⟨⟨wellFormed, layered.root, ?_, layered.flows, layered.loose⟩,
    core_hold_node parent isReserved⟩
  intro held member heldReserved
  rcases mem_nodes_hold.1 member with isNew | ⟨before, present, rfl⟩
  · cases isNew
    exact limitNode.transfer rfl rfl rfl rfl rfl fun _ joined => joined
  · have sameId : (if before.id = parent then before.addChild node.id else before).id =
        before.id := by
      split <;> rfl
    have limitBefore := layered.nodes before present (sameId ▸ heldReserved)
    refine limitBefore.transfer sameId ?_ ?_ ?_ ?_ fun _ joined => joined
    all_goals split <;> rfl

/-- Holding a flow of a time limit leaves the core. -/
theorem holdFlow {parent : ElementId} {flow : SequenceFlow} (isReserved : reserved flow.id = true)
    (limitFlow : LimitFlow reserved flow) (free : flow.id ∉ graph.ids)
    (wellFormed : (graph.hold parent (.flow flow)).WellFormed) :
    Overlays reserved graph (graph.hold parent (.flow flow)) := by
  refine ⟨⟨wellFormed, layered.root, ?_, ?_, ?_⟩,
    core_hold_flow parent free isReserved limitFlow.source limitFlow.target⟩
  · intro held member heldReserved
    rcases mem_nodes_hold.1 member with isFlow | ⟨before, present, rfl⟩
    · cases isFlow
    · have sameId : (if before.id = parent then before.addChild flow.id else before).id =
          before.id := by
        split <;> rfl
      have limitBefore := layered.nodes before present (sameId ▸ heldReserved)
      have joined : ∀ reference, graph.joins reference before.id = true →
          (graph.hold parent (.flow flow)).joins reference before.id = true := by
        intro reference joins
        have differs : reference ≠ flow.id := by
          rintro rfl
          simp [Graph.joins, flow?_of_free free] at joins
        have absent : (graph.updateNode parent (·.addChild flow.id)).flow? flow.id = none :=
          show graph.flow? flow.id = none from flow?_of_free free
        refine (joins_append_flow absent reference before.id).trans ?_
        rw [if_neg differs]
        exact joins
      refine limitBefore.transfer sameId ?_ ?_ ?_ ?_ joined
      all_goals split <;> rfl
  · intro drawn member drawnReserved
    rcases mem_flows_hold.1 member with isNew | present
    · cases isNew
      exact limitFlow
    · exact layered.flows drawn present drawnReserved
  · intro drawn member unreserved
    rcases mem_flows_hold.1 member with isNew | present
    · cases isNew
      rw [isReserved] at unreserved
      cases unreserved
    · exact layered.loose drawn present unreserved

/-- Linking the event of a time limit to its flow leaves the core. -/
theorem linkOutgoing {limit : TimeLimit} {activity : ElementId}
    (isReserved : reserved (Part.event.id limit activity) = true)
    (joined : graph.joins (Part.flow.id limit activity) (Part.event.id limit activity) = true) :
    Overlays reserved graph (graph.updateNode (Part.event.id limit activity)
      (·.linkOutgoing (Part.flow.id limit activity))) := by
  have keepsId : ∀ node : Node, (node.linkOutgoing (Part.flow.id limit activity)).id = node.id :=
    fun node => node.id_linkOutgoing _
  refine layered.updateNode (fun node => node.shape_linkOutgoing _)
    (core_updateNode isReserved keepsId) fun _ node _ isHere limitNode => ?_
  cases limitNode with
  | service isService =>
      exact nomatch (Part.id_inj.1 (isHere.symm.trans isService)).1
  | event isEvent isBoundary single nothing only drawn =>
      obtain ⟨_, rfl, rfl⟩ := Part.id_inj.1 (isHere.symm.trans isEvent)
      unfold Node.linkOutgoing
      split
      next => exact .event isEvent isBoundary single nothing only drawn
      next fresh =>
        -- The one reference that the event may have is the one that is missing.
        have none : node.outgoing = [] := by
          rcases List.sublist_singleton.1 only with empty | whole
          · exact empty
          · exact absurd (whole ▸ List.mem_singleton_self _) fresh
        refine .event isEvent isBoundary single nothing ?_ ?_
        · rw [none, List.nil_append]
        · intro reference referred
          rw [none, List.nil_append, List.mem_singleton] at referred
          rw [referred, show ({ node with
            outgoing := node.outgoing ++ [Part.flow.id limit activity] } : Node).id =
              Part.event.id limit activity from isHere]
          exact joined

/-- Linking the service task of a time limit to its flow leaves the core. -/
theorem linkIncoming {limit : TimeLimit} {activity : ElementId}
    (isReserved : reserved (Part.service.id limit activity) = true) :
    Overlays reserved graph (graph.updateNode (Part.service.id limit activity)
      (·.linkIncoming (Part.flow.id limit activity))) := by
  have keepsId : ∀ node : Node, (node.linkIncoming (Part.flow.id limit activity)).id = node.id :=
    fun node => node.id_linkIncoming _
  refine layered.updateNode (fun node => node.shape_linkIncoming _)
    (core_updateNode isReserved keepsId) fun _ node _ isHere limitNode => ?_
  cases limitNode with
  | event isEvent =>
      exact nomatch (Part.id_inj.1 (isHere.symm.trans isEvent)).1
  | service isService isTask only nothing =>
      obtain ⟨_, rfl, rfl⟩ := Part.id_inj.1 (isHere.symm.trans isService)
      unfold Node.linkIncoming
      split
      next => exact .service isService isTask only nothing
      next fresh =>
        have none : node.incoming = [] := by
          rcases List.sublist_singleton.1 only with empty | whole
          · exact empty
          · exact absurd (whole ▸ List.mem_singleton_self _) fresh
        refine .service isService isTask ?_ nothing
        rw [none, List.nil_append]

end Layered

end Steps

end BusinessProcess.TimeLimit
