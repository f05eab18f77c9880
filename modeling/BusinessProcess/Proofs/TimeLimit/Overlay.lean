import BusinessProcess.Proofs.TimeLimit.Layer

/-!
# Changes of time limits overlay the core

A whole change of a time limit is made of steps that leave the core of the process as it is. None of
these steps is refused: whatever the layer of time limits looks like, the ids of a limit are free
once it is uninstalled, and the container that its elements are added to belongs to the core. So a
change fails only where there is no activity to change.
-/

namespace BusinessProcess.TimeLimit

open BusinessProcess.Graph

/-- All ids that the time limits of an activity may use are reserved. -/
def Covers (reserved : ElementId → Bool) (activity : ElementId) : Prop :=
  ∀ (limit : TimeLimit) (part : Part), reserved (part.id limit activity) = true

/-- The id is that of a container of the core. -/
def IsHolder (reserved : ElementId → Bool) (graph : Graph) (container : ElementId) : Prop :=
  ∃ outer ∈ (graph.core reserved).nodes, outer.id = container ∧ outer.kind.isContainer = true

theorem serviceFlow_eq (activity : ElementId) (limit : TimeLimit) :
    serviceFlow activity limit = .between (Part.flow.id limit activity)
      (Part.event.id limit activity) (Part.service.id limit activity) := by
  rw [serviceFlow, serviceFlowId_eq, serviceId_eq, boundaryId_eq]

theorem limitNode_boundaryEvent (graph : Graph) (activity : ElementId) (setting : Setting) :
    LimitNode graph (boundaryEvent activity setting) :=
  .event rfl rfl (Nat.le_refl 1) rfl (List.nil_sublist _) fun _ referred =>
    absurd referred List.not_mem_nil

theorem limitNode_serviceTask (graph : Graph) (activity : ElementId) (limit : TimeLimit)
    (delegate : String) : LimitNode graph (serviceTask activity limit delegate) :=
  .service (serviceId_eq limit activity) rfl (List.nil_sublist _) rfl

/-- A change of the value kept for a time limit is forgotten with it. -/
theorem forgetLimits_insert (limit : TimeLimit) (raw : String) (attributes : Attributes) :
    Attributes.forgetLimits (attributes.insert limit.attributeKey raw) =
      attributes.forgetLimits :=
  attributes.select_insert_of_not (by rw [isLimitKey_attributeKey]; rfl) raw

theorem forgetLimits_erase (limit : TimeLimit) (attributes : Attributes) :
    Attributes.forgetLimits (attributes.erase limit.attributeKey) = attributes.forgetLimits :=
  attributes.select_erase_of_not (by rw [isLimitKey_attributeKey]; rfl)

section Change

variable {reserved : ElementId → Bool} {graph later : Graph}

theorem IsHolder.overlaid {container : ElementId} (holder : IsHolder reserved graph container)
    (overlays : Overlays reserved graph later) : IsHolder reserved later container := by
  rw [IsHolder, overlays.core_eq]
  exact holder

/-- A container of the core is a container of the process. -/
theorem IsHolder.exists_node {container : ElementId} (holder : IsHolder reserved graph container) :
    ∃ outer ∈ graph.nodes, outer.id = container ∧ outer.kind.isContainer = true := by
  obtain ⟨_, member, sameId, isContainer⟩ := holder
  obtain ⟨outer, present, _, rfl⟩ := mem_nodes_core.1 member
  rw [id_coreNode] at sameId
  rw [kind_coreNode] at isContainer
  exact ⟨outer, present, sameId, isContainer⟩

namespace Layered

variable (layered : Layered reserved graph)
include layered

/-- What holds an element is a container of the core. -/
theorem isHolder {node : Node} (member : node ∈ graph.nodes) {container : ElementId}
    (held : node.parent = some container) : IsHolder reserved graph container := by
  obtain ⟨outer, present, rfl, isContainer⟩ :=
    layered.wellFormed.parent_named (node_mem_elements.2 member) held
  refine ⟨graph.coreNode reserved outer, mem_nodes_core.2 ⟨outer, present, ?_, rfl⟩,
    id_coreNode outer, (congrArg NodeKind.isContainer (kind_coreNode outer)).trans isContainer⟩
  exact layered.container_unreserved present isContainer

/-- Adding the flow of a time limit leaves the core. -/
theorem addFlow {activity : ElementId} (covers : Covers reserved activity) {limit : TimeLimit}
    {parent : ElementId} (done : graph.addFlow parent (serviceFlow activity limit) = .ok later) :
    Overlays reserved graph later := by
  rw [serviceFlow_eq] at done
  obtain ⟨drawn, isDrawn, rfl⟩ := addFlow_eq_ok done
  have wellFormed := layered.wellFormed.addFlowUnlinked isDrawn
  obtain ⟨vacant, _, rfl⟩ := addFlowUnlinked_eq_ok isDrawn
  let flow : SequenceFlow := { SequenceFlow.between (Part.flow.id limit activity)
    (Part.event.id limit activity) (Part.service.id limit activity) with parent := some parent }
  have limitFlow : LimitFlow reserved flow :=
    ⟨⟨limit, activity, rfl⟩, rfl, rfl, covers limit .event, covers limit .service⟩
  have held := layered.holdFlow (covers limit .flow) limitFlow vacant.free wellFormed
  have joined : (graph.hold parent (.flow flow)).joins flow.id flow.source = true := by
    have absent : (graph.updateNode parent (·.addChild flow.id)).flow? flow.id = none :=
      show graph.flow? flow.id = none from flow?_of_free vacant.free
    refine (joins_append_flow absent flow.id flow.source).trans ?_
    simp
  have linked := held.layered.linkOutgoing (covers limit .event) joined
  exact held.trans (linked.trans (linked.layered.linkIncoming (covers limit .service)))

/-- Uninstalling a time limit erases its elements, those that are there. -/
theorem uninstall {activity : ElementId} (covers : Covers reserved activity) (limit : TimeLimit) :
    ∃ left, TimeLimit.uninstall activity limit graph = .ok () left ∧
      Overlays reserved graph left ∧ ∀ part : Part, part.id limit activity ∉ left.ids := by
  obtain ⟨_, first, flowRemoved, flowErased⟩ := layered.removeFlow (covers limit .flow)
  obtain ⟨_, second, serviceRemoved, serviceErased⟩ :=
    flowErased.overlays.layered.removeNode (by decide) (covers limit .service)
  obtain ⟨_, left, eventRemoved, eventErased⟩ :=
    serviceErased.overlays.layered.removeNode (by decide) (covers limit .event)
  have erased := (flowErased.trans serviceErased).trans eventErased
  refine ⟨left, uninstall_eq_ok flowRemoved serviceRemoved eventRemoved, erased.overlays,
    fun part used => (erased.ids _ used).2 ?_⟩
  cases part <;> simp

/-- Installing a time limit leaves the core. -/
theorem install (delegate : String) {activity : Node} (covers : Covers reserved activity.id)
    {container : ElementId} (held : activity.parent = some container)
    (holder : IsHolder reserved graph container) (setting : Setting) :
    ∃ left, TimeLimit.install delegate container activity.id setting graph = .ok () left ∧
      Overlays reserved graph left := by
  obtain ⟨cleared, uninstalled, overlays, free⟩ := layered.uninstall covers setting.limit
  obtain ⟨outer, outerMember, rfl, outerHolds⟩ := (holder.overlaid overlays).exists_node
  have wellFormed := overlays.layered.wellFormed
  have outerShown := face?_of_node_mem wellFormed.distinct outerMember
  obtain ⟨first, second, left, eventAdded, serviceAdded, flowAdded, _⟩ :=
    exists_added delegate wellFormed held outerShown outerHolds setting fun part =>
      face?_eq_none_iff.2 (free part)
  have withEvent := overlays.layered.addNode (covers setting.limit .event)
    (limitNode_boundaryEvent _ _ _) rfl eventAdded
  have serviceReserved : reserved (serviceTask activity.id setting.limit delegate).id = true :=
    (congrArg reserved (serviceId_eq setting.limit activity.id)).trans (covers _ _)
  have withService := withEvent.layered.addNode serviceReserved
    (limitNode_serviceTask _ _ _ _) rfl serviceAdded
  have withFlow := withService.layered.addFlow covers flowAdded
  exact ⟨left, install_eq_ok uninstalled eventAdded serviceAdded flowAdded,
    overlays.trans (withEvent.trans (withService.trans withFlow))⟩

/-- Working out time limits again leaves the core. -/
theorem refresh (delegate : String) {activity : Node} (covers : Covers reserved activity.id)
    {container : ElementId} (held : activity.parent = some container)
    (holder : IsHolder reserved graph container) (reached : Bool) (limits : List TimeLimit) :
    ∃ left, TimeLimit.refresh delegate container activity.id reached limits graph = .ok () left ∧
      Overlays reserved graph left := by
  induction limits generalizing graph reached with
  | nil => exact ⟨graph, by cases reached <;> rfl, layered.overlays_self⟩
  | cons limit rest inductionHypothesis =>
      -- A limit that is not worked out is uninstalled, and so are those after it.
      have missing : ∃ left, (TimeLimit.uninstall activity.id limit >>= fun _ =>
          TimeLimit.refresh delegate container activity.id false rest) graph = .ok () left ∧
            Overlays reserved graph left := by
        obtain ⟨middle, uninstalled, overlays, _⟩ := layered.uninstall covers limit
        obtain ⟨left, refreshed, more⟩ :=
          inductionHypothesis overlays.layered (holder.overlaid overlays) false
        exact ⟨left, (TimerChange.bind_of_ok uninstalled).trans refreshed, overlays.trans more⟩
      cases reached with
      | false => exact missing
      | true =>
          rw [refresh_cons_apply]
          cases due? (attributesOf graph activity.id) limit with
          | none => exact missing
          | some setting =>
              obtain ⟨middle, installed, overlays⟩ :=
                layered.install delegate covers held holder setting
              obtain ⟨left, refreshed, more⟩ :=
                inductionHypothesis overlays.layered (holder.overlaid overlays) true
              exact ⟨left, (TimerChange.bind_of_ok installed).trans refreshed, overlays.trans more⟩

/-- Changing the values that an activity keeps for its time limits leaves the core. -/
theorem changeLimits {activity : Node} (member : activity ∈ graph.nodes)
    (isActivity : activity.kind.isActivity = true) {change : Attributes → Attributes}
    (forgets : ∀ attributes, (change attributes).forgetLimits = attributes.forgetLimits) :
    Overlays reserved graph (graph.updateNode activity.id fun node =>
      { node with attributes := change node.attributes }) := by
  refine layered.updateNode (fun _ => rfl) (core_changeLimits forgets fun node present same => ?_)
    fun _ node _ _ limitNode => limitNode.transfer rfl rfl rfl rfl rfl fun _ joined => joined
  rw [layered.wellFormed.node_eq present member same]
  exact isActivity

/-- A change of a time limit leaves the core. It fails only where there is no activity, and then
nothing is changed. -/
theorem change {activity : ElementId} (covers : Covers reserved activity) (delegate : String)
    (limit : TimeLimit) (value : Option String) :
    (∃ outcome left, limit.change delegate activity value graph = .ok outcome left ∧
        Overlays reserved graph left) ∨
      limit.change delegate activity value graph = .error (.unknownElement activity) graph ∨
      limit.change delegate activity value graph = .error (.notAnActivity activity) graph := by
  cases found : graph.node? activity with
  | none =>
      refine .inr (.inl (change_of_unowned ?_))
      simp only [owningContainer, found]
  | some node =>
      obtain rfl := id_of_node? found
      have member := mem_of_node? found
      cases isActivity : node.kind.isActivity with
      | false =>
          refine .inr (.inr (change_of_unowned ?_))
          simp [owningContainer, found, isActivity]
      | true =>
          left
          obtain ⟨container, held⟩ := layered.wellFormed.exists_parent member isActivity
          have owning : owningContainer graph node.id = .ok container := by
            simp only [owningContainer, found, isActivity, if_true, held]
          have holder := layered.isHolder member held
          cases entered : Text.entered? value with
          | none =>
              have erased := layered.changeLimits member isActivity (forgetLimits_erase limit)
              obtain ⟨middle, uninstalled, overlays, _⟩ := erased.layered.uninstall covers limit
              have first := erased.trans overlays
              obtain ⟨left, refreshed, more⟩ := first.layered.refresh delegate covers held
                (holder.overlaid first) false limit.dependents
              exact ⟨_, left, change_of_empty owning entered uninstalled refreshed,
                first.trans more⟩
          | some raw =>
              cases done : derive (attributesOf graph node.id) limit raw with
              | error obstacle =>
                  exact ⟨_, graph, change_of_obstacle owning entered done, layered.overlays_self⟩
              | ok expression =>
                  have kept :=
                    layered.changeLimits member isActivity (forgetLimits_insert limit raw)
                  obtain ⟨middle, installed, overlays⟩ := kept.layered.install delegate covers held
                    (holder.overlaid kept) ⟨limit, raw, expression⟩
                  have first := kept.trans overlays
                  obtain ⟨left, refreshed, more⟩ := first.layered.refresh delegate covers held
                    (holder.overlaid first) true limit.dependents
                  exact ⟨_, left, change_of_derived owning entered done installed refreshed,
                    first.trans more⟩

/-- Whatever a change answers, the process that it leaves behind overlays the one before. -/
theorem change_left {activity : ElementId} (covers : Covers reserved activity) (delegate : String)
    (limit : TimeLimit) (value : Option String) :
    Overlays reserved graph ((limit.change delegate activity value).left graph) := by
  rw [TimerChange.left]
  rcases layered.change covers delegate limit value with
    ⟨_, left, done, overlays⟩ | failed | failed
  · rw [done]
    exact overlays
  · rw [failed]
    exact layered.overlays_self
  · rw [failed]
    exact layered.overlays_self

end Layered

end Change

end BusinessProcess.TimeLimit
