import BusinessProcess.Proofs.Graph.Cascade
import BusinessProcess.Proofs.TimeLimit.Keep
import BusinessProcess.Proofs.TimeLimit.Restoration

/-!
# The parts of an activity keep to themselves

Where no id of a process is that of a part of a time limit of an activity, such ids are taken by
the parts of these limits only, whatever time limits are changed afterwards and on whatever
elements. No flow joins such a part but the one of its own limit, so uninstalling a limit takes its
parts away and nothing else.
-/

namespace BusinessProcess.TimeLimit

open BusinessProcess.Graph

/-! ## Uninstalling a limit that is not mixed up with others -/

/-- What has the id of a part of the limit is such a part, as far as kinds and joined flows go. -/
structure Sealed (limit : TimeLimit) (activity : ElementId) (graph : Graph) : Prop where
  wellFormed : graph.WellFormed
  root : ∀ part : Part, part.id limit activity ≠ graph.root
  nodes : ∀ node ∈ graph.nodes, ∀ part : Part, node.id = part.id limit activity →
    part ≠ .flow ∧ node.kind.isContainer = false
  flows : ∀ flow ∈ graph.flows, ∀ part : Part, flow.id = part.id limit activity → part = .flow
  /-- Only the flow of the limit joins its parts. -/
  loose : ∀ flow ∈ graph.flows, ∀ part : Part,
    flow.source = part.id limit activity ∨ flow.target = part.id limit activity →
      flow.id = Part.flow.id limit activity

namespace Sealed

variable {limit : TimeLimit} {activity : ElementId} {graph : Graph}

theorem without (isSealed : Sealed limit activity graph) {doomed : ElementId → Bool}
    (severable : graph.Severable doomed) : Sealed limit activity (graph.without doomed) where
  wellFormed := isSealed.wellFormed.without severable
  root := isSealed.root
  nodes node member := by
    obtain ⟨before, present, _, rfl⟩ := mem_nodes_without.1 member
    exact isSealed.nodes before present
  flows flow member := isSealed.flows flow (mem_flows_without.1 member).1
  loose flow member := isSealed.loose flow (mem_flows_without.1 member).1

/-- Removing the flow of the limit removes nothing else. -/
private theorem removeFlow (isSealed : Sealed limit activity graph) :
    (∃ removed, graph.removeFlow (Part.flow.id limit activity) =
      (removed, graph.without (· = Part.flow.id limit activity))) ∧
      Sealed limit activity (graph.without (· = Part.flow.id limit activity)) := by
  have free : graph.node? (Part.flow.id limit activity) = none := by
    cases found : graph.node? (Part.flow.id limit activity) with
    | none => rfl
    | some node =>
        exact absurd rfl (isSealed.nodes node (mem_of_node? found) .flow (id_of_node? found)).1
  have gone := Graph.removeFlow_eq isSealed.wellFormed.tidy free
  obtain ⟨doomed, cascade, same, _⟩ :=
    isSealed.wellFormed.exists_cascade_of_removeFlow (Part.flow.id limit activity)
  have left := isSealed.without cascade.toSeverable
  rw [← same, gone] at left
  exact ⟨⟨_, Prod.ext rfl gone⟩, left⟩

/-- Once its flow is gone, removing a part of the limit removes nothing else. -/
private theorem removePart (isSealed : Sealed limit activity graph) (part : Part)
    (isNode : part ≠ .flow) (flowless : graph.flow? (Part.flow.id limit activity) = none) :
    (∃ removed, graph.removeNode (part.id limit activity) =
      .ok (removed, graph.without (· = part.id limit activity))) ∧
      Sealed limit activity (graph.without (· = part.id limit activity)) := by
  have wellFormed := isSealed.wellFormed
  suffices removes : ∃ removed, graph.removeNode (part.id limit activity) =
      .ok (removed, graph.without (· = part.id limit activity)) by
    obtain ⟨removed, done⟩ := removes
    obtain ⟨doomed, cascade, same, _⟩ := wellFormed.exists_cascade_of_removeNode done
    exact ⟨⟨removed, done⟩, same ▸ isSealed.without cascade.toSeverable⟩
  cases found : graph.node? (part.id limit activity) with
  | none =>
      have free : part.id limit activity ∉ graph.ids := by
        rw [← contains_iff, contains, found, Option.isSome_none, Bool.false_or,
          Option.isSome_iff_exists]
        rintro ⟨flow, drawn⟩
        exact isNode (isSealed.flows flow (mem_of_flow? drawn) part (id_of_flow? drawn))
      have unchanged : graph.without (· = part.id limit activity) = graph :=
        wellFormed.tidy.without_eq_self fun id used =>
          decide_eq_false fun isPart => free (isPart ▸ used)
      rw [unchanged]
      refine ⟨none, ?_⟩
      simp only [removeNode, isSealed.root part, if_false, found]
  | some node =>
      have sameId := id_of_node? found
      have member := mem_of_node? found
      have notRoot : node.id ≠ graph.root := sameId ▸ isSealed.root part
      have childless := wellFormed.childless_of_holdsNothing member
        (isSealed.nodes node member part sameId).2
      obtain ⟨done, _⟩ := wellFormed.removeNode_of_isolated member notRoot childless
        fun flow drawn => by
          rw [← not_or, sameId]
          intro joins
          have isFlow := isSealed.loose flow drawn part joins
          rw [← isFlow, flow?_of_mem wellFormed.distinct drawn] at flowless
          cases flowless
      rw [sameId] at done
      exact ⟨some node, done⟩

/-- Uninstalling the limit erases its parts, those that are there, and nothing else. -/
theorem uninstall_eq (isSealed : Sealed limit activity graph) :
    uninstall activity limit graph = .ok () (graph.without (isPartOf limit activity)) := by
  obtain ⟨⟨flow, flowGone⟩, first⟩ := isSealed.removeFlow
  obtain ⟨⟨service, serviceGone⟩, second⟩ := first.removePart .service (by decide)
    (by simp [flow?_without])
  obtain ⟨⟨event, eventGone⟩, _⟩ := second.removePart .event (by decide)
    (by simp [flow?_without])
  rw [uninstall_eq_ok flowGone serviceGone eventGone, without_without, without_without]
  rfl

end Sealed

/-! ## Activities whose limits are not mixed up with anything -/

/-- What has the id of a part of a time limit of the activity is such a part, as far as kinds and
joined flows go. -/
structure Secluded (activity : ElementId) (graph : Graph) : Prop where
  wellFormed : graph.WellFormed
  root : ∀ (limit : TimeLimit) (part : Part), part.id limit activity ≠ graph.root
  nodes : ∀ node ∈ graph.nodes, ∀ (limit : TimeLimit) (part : Part),
    node.id = part.id limit activity → part ≠ .flow ∧ node.kind.isContainer = false
  flows : ∀ flow ∈ graph.flows, ∀ (limit : TimeLimit) (part : Part),
    flow.id = part.id limit activity → part = .flow ∧
      flow.source = Part.event.id limit activity ∧ flow.target = Part.service.id limit activity
  /-- Only the flow of a limit joins the parts of the limit. -/
  loose : ∀ flow ∈ graph.flows, ∀ (limit : TimeLimit) (part : Part),
    flow.source = part.id limit activity ∨ flow.target = part.id limit activity →
      flow.id = Part.flow.id limit activity

namespace Secluded

variable {activity : ElementId} {graph : Graph}

/-- Ids that are not taken are not taken by anything else. -/
theorem initially (wellFormed : graph.WellFormed)
    (free : ∀ (limit : TimeLimit) (part : Part), part.id limit activity ∉ graph.ids) :
    Secluded activity graph where
  wellFormed := wellFormed
  root limit part isRoot := by
    obtain ⟨root, member, rootId, _⟩ := wellFormed.rooted
    exact free limit part (isRoot ▸ rootId ▸ id_mem_of_node member)
  nodes node member limit part isPart :=
    absurd (isPart ▸ id_mem_of_node member) (free limit part)
  flows flow member limit part isPart :=
    absurd (isPart ▸ id_mem_of_flow member) (free limit part)
  loose flow member limit part joins := by
    obtain ⟨⟨source, sourceMember, sourceId⟩, target, targetMember, targetId⟩ :=
      wellFormed.joined flow member
    rcases joins with isPart | isPart
    · exact absurd (isPart ▸ sourceId ▸ id_mem_of_node sourceMember) (free limit part)
    · exact absurd (isPart ▸ targetId ▸ id_mem_of_node targetMember) (free limit part)

/-! ## Steps that keep the parts secluded -/

theorem without (secluded : Secluded activity graph) {doomed : ElementId → Bool}
    (severable : graph.Severable doomed) : Secluded activity (graph.without doomed) where
  wellFormed := secluded.wellFormed.without severable
  root := secluded.root
  nodes node member := by
    obtain ⟨before, present, _, rfl⟩ := mem_nodes_without.1 member
    exact secluded.nodes before present
  flows flow member := secluded.flows flow (mem_flows_without.1 member).1
  loose flow member := secluded.loose flow (mem_flows_without.1 member).1

theorem removeFlow (secluded : Secluded activity graph) (id : ElementId) :
    Secluded activity (graph.removeFlow id).2 := by
  rcases secluded.wellFormed.removeFlow_cases id with ⟨_, done⟩ | ⟨flow, member, rfl, done⟩
  · rw [done]
    exact secluded
  · rw [done]
    exact secluded.without (secluded.wellFormed.severable_flow member)

theorem keeps_removeNode (id : ElementId) :
    TimerChange.Keeps (Secluded activity) (.removeNode id) := by
  intro graph secluded
  rw [TimerChange.left, TimerChange.removeNode]
  rcases secluded.wellFormed.removeNode_cases id with
    ⟨_, done⟩ | ⟨_, done⟩ | ⟨node, member, rfl, notRoot, done⟩
  · rw [done]
    exact secluded
  · rw [done]
    exact secluded
  · rw [done]
    exact secluded.without (secluded.wellFormed.severable_node member notRoot)

/-- How elements are described has no part in which ids they take. -/
theorem of_sameShape (secluded : Secluded activity graph) {other : Graph}
    (same : graph.SameShape other) : Secluded activity other where
  wellFormed := secluded.wellFormed.of_sameShape same
  root limit part := same.root ▸ secluded.root limit part
  nodes node member limit part isPart := by
    obtain ⟨before, present, alike⟩ := same.symm.exists_node member
    rw [← alike.kind]
    exact secluded.nodes before present limit part (alike.id.trans isPart)
  flows flow member limit part isPart := by
    obtain ⟨before, present, alike⟩ := same.symm.exists_flow member
    rw [← alike.source, ← alike.target]
    exact secluded.flows before present limit part (alike.id.trans isPart)
  loose flow member limit part joins := by
    obtain ⟨before, present, alike⟩ := same.symm.exists_flow member
    rw [← alike.source, ← alike.target] at joins
    exact alike.id.symm.trans (secluded.loose before present limit part joins)

/-- A node may be added unless it takes the id of a part without being one. -/
theorem addNode (secluded : Secluded activity graph) {added : Graph} {parent : ElementId}
    {node : Node} (empty : node.children = [])
    (isPart : ∀ (limit : TimeLimit) (part : Part), node.id = part.id limit activity →
      part ≠ .flow ∧ node.kind.isContainer = false)
    (done : graph.addNode parent node = .ok added) : Secluded activity added := by
  have wellFormed := secluded.wellFormed.addNode empty done
  obtain ⟨_, rfl⟩ := addNode_eq_ok done
  refine ⟨wellFormed, secluded.root, fun held member limit part sameId => ?_, secluded.flows,
    secluded.loose⟩
  rcases exists_of_mem_nodes_hold member with isNew | ⟨before, present, beforeId, beforeKind⟩
  · cases isNew
    exact isPart limit part sameId
  · rw [← beforeKind]
    exact secluded.nodes before present limit part (beforeId.trans sameId)

/-- The flow of a limit may be added, whatever activity the limit is set on. -/
theorem addFlow (secluded : Secluded activity graph) {added : Graph} {parent other : ElementId}
    {limit : TimeLimit} (done : graph.addFlow parent (serviceFlow other limit) = .ok added) :
    Secluded activity added := by
  rw [serviceFlow_eq] at done
  obtain ⟨drawn, isDrawn, rfl⟩ := addFlow_eq_ok done
  have wellFormed := secluded.wellFormed.addFlowUnlinked isDrawn
  obtain ⟨_, _, rfl⟩ := addFlowUnlinked_eq_ok isDrawn
  refine (of_sameShape (?_ : Secluded activity _) (sameShape_updateNode _ _ fun node =>
    node.shape_linkOutgoing _)).of_sameShape (sameShape_updateNode _ _ fun node =>
      node.shape_linkIncoming _)
  refine ⟨wellFormed, secluded.root, fun node member further part sameId => ?_,
    fun flow member further part sameId => ?_, fun flow member further part joins => ?_⟩
  · rcases exists_of_mem_nodes_hold member with isFlow | ⟨before, present, beforeId, beforeKind⟩
    · cases isFlow
    · rw [← beforeKind]
      exact secluded.nodes before present further part (beforeId.trans sameId)
  · rcases mem_flows_hold.1 member with isNew | present
    · cases isNew
      obtain ⟨rfl, rfl, rfl⟩ := Part.id_inj.1 sameId
      exact ⟨rfl, rfl, rfl⟩
    · exact secluded.flows flow present further part sameId
  · rcases mem_flows_hold.1 member with isNew | present
    · cases isNew
      rcases joins with isPart | isPart
      · obtain ⟨_, rfl, rfl⟩ := Part.id_inj.1 isPart
        rfl
      · obtain ⟨_, rfl, rfl⟩ := Part.id_inj.1 isPart
        rfl
    · exact secluded.loose flow present further part joins

/-! ## Changes of time limits -/

theorem keeps_uninstall (other : ElementId) (limit : TimeLimit) :
    TimerChange.Keeps (Secluded activity) (uninstall other limit) := by
  have removeFlow : ∀ id, TimerChange.Keeps (Secluded activity) (TimerChange.removeFlow id) :=
    fun id _ secluded => secluded.removeFlow id
  exact (removeFlow _).bind fun _ => (keeps_removeNode _).bind fun _ =>
    (keeps_removeNode _).bind fun _ => .pure _

/-- The parts that are installed are parts, whatever activity they belong to. -/
theorem keeps_install (delegate : String) (container other : ElementId) (setting : Setting) :
    TimerChange.Keeps (Secluded activity) (install delegate container other setting) := by
  refine (keeps_uninstall other setting.limit).bind fun _ => ?_
  refine (TimerChange.Keeps.attempt fun graph added secluded done => ?_).bind fun _ => ?_
  · refine secluded.addNode rfl (fun limit part isPart => ⟨?_, rfl⟩) done
    rw [← (Part.id_inj.1 (show Part.event.id setting.limit other = _ from isPart)).1]
    decide
  refine (TimerChange.Keeps.attempt fun graph added secluded done => ?_).bind fun _ => ?_
  · refine secluded.addNode rfl (fun limit part isPart => ⟨?_, rfl⟩) done
    rw [← (Part.id_inj.1 ((serviceId_eq setting.limit other).symm.trans isPart)).1]
    decide
  exact .attempt fun graph added secluded done => secluded.addFlow done

/-- Time limits of any elements may be changed. -/
theorem keeps_change (delegate : String) (other : ElementId) (limit : TimeLimit)
    (value : Option String) :
    TimerChange.Keeps (Secluded activity) (limit.change delegate other value) :=
  keeps_change_of (fun _ _ secluded _ => secluded) (fun _ _ secluded => secluded)
    (fun _ _ graph secluded =>
      secluded.of_sameShape (sameShape_updateNode graph other fun _ => rfl))
    (fun _ => keeps_uninstall other) (fun container => keeps_install delegate container other)
    limit value

/-! ## Uninstalling -/

/-- Each limit of the activity is by itself. -/
theorem isSealed (secluded : Secluded activity graph) (limit : TimeLimit) :
    Sealed limit activity graph where
  wellFormed := secluded.wellFormed
  root := secluded.root limit
  nodes node member := secluded.nodes node member limit
  flows flow drawn part isPart := (secluded.flows flow drawn limit part isPart).1
  loose flow drawn := secluded.loose flow drawn limit

/-- Uninstalling a limit erases its parts, those that are there, and nothing else. -/
theorem uninstall_eq (secluded : Secluded activity graph) (limit : TimeLimit) :
    uninstall activity limit graph = .ok () (graph.without (isPartOf limit activity)) :=
  (secluded.isSealed limit).uninstall_eq

end Secluded

end BusinessProcess.TimeLimit
