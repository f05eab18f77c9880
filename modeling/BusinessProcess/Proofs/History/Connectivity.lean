import BusinessProcess.Proofs.History.Integrity

/-!
# References and drawn flows

Nodes refer to their flows, and the process holds the flows that are drawn. As long as no node
brings references along, the two views agree: a node refers to exactly those of its drawn flows
that were last added with their references, in the order in which they were drawn.
-/

namespace BusinessProcess

namespace Graph

/-! ## The flows that a node should refer to -/

/-- The linked ones among the drawn flows whose end `tip` is the given node, oldest first. -/
def linkedAt (graph : Graph) (linked : ElementId → Bool) (tip : SequenceFlow → ElementId)
    (id : ElementId) : List ElementId :=
  ((graph.flows.filter fun flow => tip flow = id).filter fun flow => linked flow.id).map
    SequenceFlow.id

/-- Every node refers to the linked ones among its drawn flows. -/
structure Connected (graph : Graph) (linked : ElementId → Bool) : Prop where
  incoming : ∀ node ∈ graph.nodes,
    node.incoming = graph.linkedAt linked SequenceFlow.target node.id
  outgoing : ∀ node ∈ graph.nodes,
    node.outgoing = graph.linkedAt linked SequenceFlow.source node.id

section LinkedAt

variable {graph : Graph} {linked : ElementId → Bool} {tip : SequenceFlow → ElementId}
  {id : ElementId}

theorem mem_linkedAt {reference : ElementId} : reference ∈ graph.linkedAt linked tip id ↔
    ∃ flow ∈ graph.flows, tip flow = id ∧ linked flow.id = true ∧ flow.id = reference := by
  simp only [linkedAt, List.mem_map, List.mem_filter, decide_eq_true_eq, and_assoc]

/-- What does not tell the flows of the process apart makes no difference. -/
theorem linkedAt_congr {other : ElementId → Bool}
    (same : ∀ flow ∈ graph.flows, linked flow.id = other flow.id) :
    graph.linkedAt linked tip id = graph.linkedAt other tip id := by
  have kept : (graph.flows.filter fun flow => tip flow = id).filter (fun flow => linked flow.id) =
      (graph.flows.filter fun flow => tip flow = id).filter fun flow => other flow.id :=
    List.filter_congr fun flow member => same flow (List.mem_of_mem_filter member)
  rw [linkedAt, kept, linkedAt]

/-- Erasing takes the doomed flows away. -/
theorem linkedAt_without (doomed : ElementId → Bool) :
    (graph.without doomed).linkedAt linked tip id =
      (graph.linkedAt linked tip id).filter (!doomed ·) := by
  simp only [linkedAt, without, List.filter_map, List.filter_filter]
  congr 1
  refine List.filter_congr fun flow _ => ?_
  simp only [Function.comp_apply]
  cases doomed flow.id <;> cases linked flow.id <;> simp

/-- A drawn flow comes last at its ends. -/
theorem linkedAt_hold (parent : ElementId) (element : Element) :
    (graph.hold parent element).linkedAt linked tip id =
      graph.linkedAt linked tip id ++
        match element with
        | .node _ => []
        | .flow flow => if tip flow = id ∧ linked flow.id = true then [flow.id] else [] := by
  cases element with
  | node node => simp [linkedAt, hold]
  | flow flow =>
      simp only [linkedAt, hold, flows_updateNode, List.filter_append, List.map_append]
      congr 1
      by_cases atEnd : tip flow = id <;> by_cases isLinked : linked flow.id = true <;>
        simp [atEnd, isLinked]

/-- How elements are described makes no difference. -/
theorem linkedAt_of_sameShape {other : Graph} (same : graph.SameShape other)
    (shaped : ∀ flow : SequenceFlow, tip flow.shape = tip flow) :
    other.linkedAt linked tip id = graph.linkedAt linked tip id := by
  have byShape : ∀ flows : List SequenceFlow,
      ((flows.filter fun flow => tip flow = id).filter fun flow => linked flow.id).map
        SequenceFlow.id =
      (((flows.map SequenceFlow.shape).filter fun flow => tip flow = id).filter fun flow =>
        linked flow.id).map SequenceFlow.id := by
    intro flows
    simp only [List.filter_map, List.map_map, Function.comp_def, shaped]
    rfl
  rw [linkedAt, linkedAt, byShape, same.flows, ← byShape]

/-- Where no flow ends, there is nothing to refer to. -/
theorem linkedAt_eq_nil (apart : ∀ flow ∈ graph.flows, tip flow ≠ id) :
    graph.linkedAt linked tip id = [] := by
  have none : graph.flows.filter (fun flow => tip flow = id) = [] :=
    List.filter_eq_nil_iff.2 fun flow member => by simpa using apart flow member
  simp [linkedAt, none]

end LinkedAt

/-! ## Single changes -/

namespace Connected

variable {graph : Graph} {linked : ElementId → Bool}

/-- Every reference of a node leads to a drawn flow of the node. -/
theorem joins_of_linkedAt (distinct : graph.ids.Nodup) {tip : SequenceFlow → ElementId}
    (isEnd : ∀ flow, tip flow = flow.source ∨ tip flow = flow.target) {id reference : ElementId}
    (refers : reference ∈ graph.linkedAt linked tip id) : graph.joins reference id = true := by
  obtain ⟨flow, member, atEnd, _, rfl⟩ := mem_linkedAt.1 refers
  rw [joins, flow?_of_mem distinct member]
  rcases isEnd flow with same | same <;> simp [← same, atEnd]

/-- A pruned node still refers to the flows that are left of those at its ends. -/
theorem filter_linkedAt (distinct : graph.ids.Nodup) {tip : SequenceFlow → ElementId}
    (isEnd : ∀ flow, tip flow = flow.source ∨ tip flow = flow.target)
    (doomed : ElementId → Bool) (id : ElementId) :
    (graph.linkedAt linked tip id).filter
        (fun reference => !(doomed reference && graph.joins reference id)) =
      (graph.without doomed).linkedAt linked tip id := by
  rw [linkedAt_without]
  refine List.filter_congr fun reference refers => ?_
  rw [joins_of_linkedAt distinct isEnd refers, Bool.and_true]

/-- Erasing keeps the views in agreement. -/
theorem without (connected : graph.Connected linked) (distinct : graph.ids.Nodup)
    (doomed : ElementId → Bool) : (graph.without doomed).Connected linked where
  incoming := by
    intro node member
    obtain ⟨before, present, _, rfl⟩ := mem_nodes_without.1 member
    refine Eq.trans ?_ (filter_linkedAt distinct (fun _ => .inr rfl) doomed before.id)
    rw [← connected.incoming before present]
    rfl
  outgoing := by
    intro node member
    obtain ⟨before, present, _, rfl⟩ := mem_nodes_without.1 member
    refine Eq.trans ?_ (filter_linkedAt distinct (fun _ => .inl rfl) doomed before.id)
    rw [← connected.outgoing before present]
    rfl

/-- Changes that keep the shape of the process and the references of each node keep the views in
agreement. -/
theorem of_sameShape (connected : graph.Connected linked) {other : Graph}
    (same : graph.SameShape other)
    (kept : ∀ node ∈ other.nodes, ∃ before ∈ graph.nodes, before.id = node.id ∧
      before.incoming = node.incoming ∧ before.outgoing = node.outgoing) :
    other.Connected linked where
  incoming := by
    intro node member
    obtain ⟨before, present, sameId, sameIncoming, _⟩ := kept node member
    rw [linkedAt_of_sameShape same fun _ => rfl, ← sameIncoming, ← sameId]
    exact connected.incoming before present
  outgoing := by
    intro node member
    obtain ⟨before, present, sameId, _, sameOutgoing⟩ := kept node member
    rw [linkedAt_of_sameShape same fun _ => rfl, ← sameOutgoing, ← sameId]
    exact connected.outgoing before present

/-- Changing a node without changing its references keeps the views in agreement. -/
theorem updateNode (connected : graph.Connected linked) (id : ElementId) {change : Node → Node}
    (shaped : ∀ node, (change node).shape = node.shape)
    (kept : ∀ node, (change node).incoming = node.incoming ∧
      (change node).outgoing = node.outgoing) :
    (graph.updateNode id change).Connected linked := by
  refine connected.of_sameShape (sameShape_updateNode graph id shaped) fun node member => ?_
  obtain ⟨before, present, rfl⟩ := List.mem_map.1 member
  refine ⟨before, present, ?_⟩
  split
  · exact ⟨((congrArg Node.id (shaped before) :)).symm, (kept before).1.symm, (kept before).2.symm⟩
  · exact ⟨rfl, rfl, rfl⟩

/-- The linked flows matter only as far as they are drawn. -/
theorem congr (connected : graph.Connected linked) {other : ElementId → Bool}
    (same : ∀ flow ∈ graph.flows, linked flow.id = other flow.id) : graph.Connected other where
  incoming := fun node member =>
    (connected.incoming node member).trans (linkedAt_congr same)
  outgoing := fun node member =>
    (connected.outgoing node member).trans (linkedAt_congr same)

/-- Adding a node that refers to nothing keeps the views in agreement. -/
theorem hold_node (connected : graph.Connected linked) (wellFormed : graph.WellFormed)
    {parent : ElementId} {added : Node} (vacant : graph.Vacant parent added.id)
    (bare : added.incoming = [] ∧ added.outgoing = []) :
    (graph.hold parent (.node added)).Connected linked := by
  have nothing : graph.linkedAt linked SequenceFlow.target added.id = [] ∧
      graph.linkedAt linked SequenceFlow.source added.id = [] := by
    constructor <;> refine linkedAt_eq_nil fun flow member atEnd => vacant.free ?_
    · obtain ⟨node, present, same⟩ := (wellFormed.joined flow member).2
      exact mem_ids.2 ⟨.node node, node_mem_elements.2 present, same.trans atEnd⟩
    · obtain ⟨node, present, same⟩ := (wellFormed.joined flow member).1
      exact mem_ids.2 ⟨.node node, node_mem_elements.2 present, same.trans atEnd⟩
  constructor
  · intro node member
    rw [linkedAt_hold, List.append_nil]
    rcases mem_nodes_hold.1 member with isAdded | ⟨before, present, rfl⟩
    · cases isAdded
      rw [bare.1, nothing.1]
    · have kept := connected.incoming before present
      split <;> exact kept
  · intro node member
    rw [linkedAt_hold, List.append_nil]
    rcases mem_nodes_hold.1 member with isAdded | ⟨before, present, rfl⟩
    · cases isAdded
      rw [bare.2, nothing.2]
    · have kept := connected.outgoing before present
      split <;> exact kept

/-- Drawing a flow without its references keeps the views in agreement. -/
theorem hold_flow (connected : graph.Connected linked) {parent : ElementId}
    {flow : SequenceFlow} (unlinked : linked flow.id = false) :
    (graph.hold parent (.flow flow)).Connected linked := by
  have same : ∀ tip id, (graph.hold parent (.flow flow)).linkedAt linked tip id =
      graph.linkedAt linked tip id := by
    intro tip id
    simp [linkedAt_hold, unlinked]
  constructor
  · intro node member
    rw [same]
    rcases mem_nodes_hold.1 member with isFlow | ⟨before, present, rfl⟩
    · cases isFlow
    · have kept := connected.incoming before present
      split <;> exact kept
  · intro node member
    rw [same]
    rcases mem_nodes_hold.1 member with isFlow | ⟨before, present, rfl⟩
    · cases isFlow
    · have kept := connected.outgoing before present
      split <;> exact kept

/-- Linking a fresh flow at its two ends appends it there to the references, and nowhere else. -/
theorem exists_of_mem_nodes_link {flow : SequenceFlow} {node : Node}
    (fresh : ∀ before ∈ graph.nodes, flow.id ∉ before.incoming ∧ flow.id ∉ before.outgoing)
    (member : node ∈ ((graph.updateNode flow.source (·.linkOutgoing flow.id)).updateNode flow.target
      (·.linkIncoming flow.id)).nodes) :
    ∃ before ∈ graph.nodes, node.id = before.id ∧
      node.incoming = before.incoming ++ (if flow.target = before.id then [flow.id] else []) ∧
      node.outgoing = before.outgoing ++ if flow.source = before.id then [flow.id] else [] := by
  obtain ⟨half, halfMember, rfl⟩ := List.mem_map.1 member
  obtain ⟨before, present, rfl⟩ := List.mem_map.1 halfMember
  obtain ⟨notIncoming, notOutgoing⟩ := fresh before present
  refine ⟨before, present, ?_⟩
  have source : before.id = flow.source ↔ flow.source = before.id := eq_comm
  have target : before.id = flow.target ↔ flow.target = before.id := eq_comm
  by_cases isSource : flow.source = before.id <;> by_cases isTarget : flow.target = before.id <;>
    simp [Node.linkOutgoing, Node.linkIncoming, source, target, isSource, isTarget, notIncoming,
      notOutgoing]

/-- Drawing a flow and linking it at its ends keeps the views in agreement. -/
theorem addFlow (connected : graph.Connected linked) {added : Graph} {parent : ElementId}
    {flow : SequenceFlow} (isLinked : linked flow.id = true)
    (done : graph.addFlow parent flow = .ok added) : added.Connected linked := by
  obtain ⟨drawn, isDrawn, rfl⟩ := addFlow_eq_ok done
  obtain ⟨vacant, _, rfl⟩ := addFlowUnlinked_eq_ok isDrawn
  have fresh : ∀ tip id, flow.id ∉ graph.linkedAt linked tip id := by
    intro tip id refers
    obtain ⟨other, member, _, _, same⟩ := mem_linkedAt.1 refers
    exact vacant.free (mem_ids.2 ⟨.flow other, flow_mem_elements.2 member, same⟩)
  have grown : ∀ tip id, tip { flow with parent := some parent } = tip flow →
      ((graph.hold parent (.flow { flow with parent := some parent })).updateNode flow.source
        (·.linkOutgoing flow.id) |>.updateNode flow.target (·.linkIncoming flow.id)).linkedAt
          linked tip id =
            graph.linkedAt linked tip id ++ if tip flow = id then [flow.id] else [] := by
    intro tip id sameTip
    refine (linkedAt_hold parent (.flow { flow with parent := some parent })).trans ?_
    simp [sameTip, isLinked]
  have freshHeld : ∀ held ∈ (graph.hold parent (.flow { flow with parent := some parent })).nodes,
      flow.id ∉ held.incoming ∧ flow.id ∉ held.outgoing := by
    intro held member
    rcases mem_nodes_hold.1 member with isFlow | ⟨before, present, rfl⟩
    · cases isFlow
    · have absent : flow.id ∉ before.incoming ∧ flow.id ∉ before.outgoing := by
        rw [connected.incoming before present, connected.outgoing before present]
        exact ⟨fresh _ _, fresh _ _⟩
      split <;> exact absent
  have seen : ∀ held ∈ (graph.hold parent (.flow { flow with parent := some parent })).nodes,
      held.incoming = graph.linkedAt linked SequenceFlow.target held.id ∧
        held.outgoing = graph.linkedAt linked SequenceFlow.source held.id := by
    intro held member
    rcases mem_nodes_hold.1 member with isFlow | ⟨before, present, rfl⟩
    · cases isFlow
    · have kept := And.intro (connected.incoming before present) (connected.outgoing before present)
      split <;> exact kept
  constructor
  · intro node member
    obtain ⟨held, heldMember, sameId, incoming, _⟩ := exists_of_mem_nodes_link freshHeld member
    rw [grown _ _ rfl, incoming, (seen held heldMember).1, sameId]
  · intro node member
    obtain ⟨held, heldMember, sameId, _, outgoing⟩ := exists_of_mem_nodes_link freshHeld member
    rw [grown _ _ rfl, outgoing, (seen held heldMember).2, sameId]

end Connected

/-- Looking up the ids of drawn flows gives the flows. -/
theorem resolve_map_id {graph : Graph} (distinct : graph.ids.Nodup) (node : ElementId)
    {flows : List SequenceFlow} (drawn : ∀ flow ∈ flows, flow ∈ graph.flows) :
    graph.resolve node (flows.map SequenceFlow.id) = .ok flows := by
  induction flows with
  | nil => rfl
  | cons flow rest inductionHypothesis =>
      have later := inductionHypothesis fun other member =>
        drawn other (List.mem_cons_of_mem flow member)
      simp only [List.map_cons, resolve, flow?_of_mem distinct (drawn flow List.mem_cons_self),
        later]

/-! ## Histories -/

/-- A removed node comes back without references. -/
theorem Connected.references_removed {graph : Graph} {linked : ElementId → Bool}
    (connected : graph.Connected linked) (wellFormed : graph.WellFormed) {node : Node}
    (member : node ∈ graph.nodes) (other : node.id ≠ graph.root) :
    (graph.prune (graph.doomedBy node.id) node).incoming = [] ∧
      (graph.prune (graph.doomedBy node.id) node).outgoing = [] := by
  have severable := wellFormed.severable_node member other
  have doomed := wellFormed.doomedBy_self member
  have apart : ∀ flow ∈ (graph.without (graph.doomedBy node.id)).flows,
      flow.target ≠ node.id ∧ flow.source ≠ node.id := by
    intro flow left
    obtain ⟨present, kept⟩ := mem_flows_without.1 left
    refine ⟨fun atEnd => ?_, fun atEnd => ?_⟩
    · rw [severable.joined flow present (.inr (atEnd ▸ doomed))] at kept
      cases kept
    · rw [severable.joined flow present (.inl (atEnd ▸ doomed))] at kept
      cases kept
  have nothing : (graph.without (graph.doomedBy node.id)).linkedAt linked SequenceFlow.target
        node.id = [] ∧
      (graph.without (graph.doomedBy node.id)).linkedAt linked SequenceFlow.source node.id = [] :=
    ⟨linkedAt_eq_nil fun flow left => (apart flow left).1,
      linkedAt_eq_nil fun flow left => (apart flow left).2⟩
  constructor
  · refine Eq.trans ?_ nothing.1
    rw [← Connected.filter_linkedAt wellFormed.distinct (fun _ => .inr rfl),
      ← connected.incoming node member]
    rfl
  · refine Eq.trans ?_ nothing.2
    rw [← Connected.filter_linkedAt wellFormed.distinct (fun _ => .inl rfl),
      ← connected.outgoing node member]
    rfl

end Graph

/-- What the induction over a history without raw references carries: besides being sound, the two
views agree, and the nodes given back by removals refer to nothing. -/
structure Ledger.Consistent (root : ElementId) (ledger : Ledger) : Prop
    extends ledger.Sound root where
  connected : ledger.graph.Connected ledger.linked
  bare : ∀ node ∈ ledger.returned, node.incoming = [] ∧ node.outgoing = []

/-- A node that may be added without raw references refers to nothing. -/
theorem Policy.Offers.bare {policy : Policy} {ledger : Ledger} {node : Node}
    (offered : policy.Offers ledger node) (noReferences : policy.rawReferences = false)
    (bare : ∀ node ∈ ledger.returned, node.incoming = [] ∧ node.outgoing = []) :
    node.incoming = [] ∧ node.outgoing = [] := by
  cases offered with
  | fresh id kind described => exact described.references noReferences
  | returned before member described =>
      have same := described.references noReferences
      have nothing := bare before member
      exact ⟨same.1.trans nothing.1, same.2.trans nothing.2⟩

/-- The process that an edit leaves behind, with the flows linked after it, is connected. -/
theorem Ledger.Consistent.run {policy : Policy} {root : ElementId} {ledger : Ledger}
    (consistent : ledger.Consistent root) (noReferences : policy.rawReferences = false)
    {edit : Edit} (allowed : policy.Allows ledger edit) :
    (edit.run ledger.graph).Connected (edit.linked ledger.graph ledger.linked) := by
  have connected := consistent.connected
  have wellFormed := consistent.wellFormed
  cases edit with
  | addNode parent node =>
      simp only [Edit.run]
      cases done : ledger.graph.addNode parent node with
      | error error => exact connected
      | ok added =>
          obtain ⟨vacant, rfl⟩ := Graph.addNode_eq_ok done
          have bare : node.incoming = [] ∧ node.outgoing = [] :=
            Policy.Offers.bare allowed noReferences consistent.bare
          exact connected.hold_node wellFormed vacant bare
  | addFlow parent flow =>
      simp only [Edit.run]
      cases done : ledger.graph.addFlow parent flow with
      | error error =>
          refine connected.congr fun other _ => ?_
          simp [Edit.linked, done, Except.isOk, Except.toBool]
      | ok added =>
          have other : ∀ drawn ∈ ledger.graph.flows, drawn.id ≠ flow.id := by
            obtain ⟨_, isDrawn, _⟩ := Graph.addFlow_eq_ok done
            intro drawn present same
            exact (Graph.addFlowUnlinked_eq_ok isDrawn).1.free
              (Graph.mem_ids.2 ⟨.flow drawn, Graph.flow_mem_elements.2 present, same⟩)
          refine (connected.congr fun drawn present => ?_).addFlow ?_ done
          · simp [Edit.linked, other drawn present]
          · simp [Edit.linked, done, Except.isOk, Except.toBool]
  | addFlowUnlinked parent flow =>
      simp only [Edit.run]
      cases done : ledger.graph.addFlowUnlinked parent flow with
      | error error =>
          refine connected.congr fun other _ => ?_
          simp [Edit.linked, done, Except.isOk, Except.toBool]
      | ok added =>
          obtain ⟨vacant, _, same⟩ := Graph.addFlowUnlinked_eq_ok done
          have other : ∀ drawn ∈ ledger.graph.flows, drawn.id ≠ flow.id := by
            intro drawn present same
            exact vacant.free
              (Graph.mem_ids.2 ⟨.flow drawn, Graph.flow_mem_elements.2 present, same⟩)
          have updated : ledger.graph.Connected
              ((Edit.addFlowUnlinked parent flow).linked ledger.graph ledger.linked) :=
            connected.congr fun drawn present => by simp [Edit.linked, other drawn present]
          have unlinked : (Edit.addFlowUnlinked parent flow).linked ledger.graph ledger.linked
              flow.id = false := by
            simp [Edit.linked, done, Except.isOk, Except.toBool]
          rw [same]
          exact updated.hold_flow unlinked
  | removeFlow id =>
      rcases wellFormed.removeFlow_cases id with ⟨_, removed⟩ | ⟨flow, _, _, removed⟩
      · simp only [Edit.run, removed]
        exact connected
      · simp only [Edit.run, removed]
        exact connected.without wellFormed.distinct _
  | removeNode id =>
      rcases wellFormed.removeNode_cases id with ⟨_, refused⟩ | ⟨_, absent⟩ | ⟨_, _, _, _, removed⟩
      · simp only [Edit.run, refused]
        exact connected
      · simp only [Edit.run, absent]
        exact connected
      · simp only [Edit.run, removed]
        exact connected.without wellFormed.distinct _
  | setName id name => exact connected.updateNode id (fun _ => rfl) fun _ => ⟨rfl, rfl⟩
  | setDefinitions id definitions =>
      exact connected.updateNode id (fun _ => rfl) fun _ => ⟨rfl, rfl⟩
  | changeAttributes id change =>
      have shape := Graph.sameShape_changeAttributes ledger.graph id change
      simp only [Edit.run, Graph.changeAttributes] at shape ⊢
      split
      next => exact connected.updateNode id (fun _ => rfl) fun _ => ⟨rfl, rfl⟩
      next =>
        exact connected.of_sameShape (Graph.sameShape_updateFlow ledger.graph id fun _ => rfl)
          fun node member => ⟨node, member, rfl, rfl, rfl⟩
      next => exact connected
  | changeNodeAttributes id change =>
      exact connected.updateNode id (fun _ => rfl) fun _ => ⟨rfl, rfl⟩
  | configureTimer event field value =>
      simp only [Edit.run]
      cases done : TimerEvent.configure ledger.graph event field value with
      | error error => exact connected
      | ok outcome =>
          obtain ⟨_, _, changed⟩ := Graph.configure_eq_ok done
          simp only [changed]
          exact connected.updateNode event (fun _ => rfl) fun _ => ⟨rfl, rfl⟩

/-- Each edit that may be made without raw references keeps a ledger consistent. -/
theorem Ledger.Consistent.record {policy : Policy} {root : ElementId} {ledger : Ledger}
    (consistent : ledger.Consistent root) (noReferences : policy.rawReferences = false)
    {edit : Edit} (allowed : policy.Allows ledger edit) :
    (ledger.record edit).Consistent root := by
  refine ⟨consistent.toSound.record allowed, consistent.run noReferences allowed, ?_⟩
  intro node member
  rcases List.mem_append.1 member with isNew | isOld
  · have given := Option.mem_toList.1 isNew
    cases edit with
    | removeNode id =>
        have wellFormed := consistent.wellFormed
        simp only [Edit.returned?] at given
        rcases wellFormed.removeNode_cases id with ⟨_, refused⟩ | ⟨_, absent⟩ |
          ⟨before, present, rfl, other, removed⟩
        · rw [refused] at given
          cases given
        · rw [absent] at given
          cases given
        · rw [removed] at given
          obtain rfl := Option.some.inj given
          exact consistent.connected.references_removed wellFormed present other
    | _ => cases given
  · exact consistent.bare node isOld

/-- As long as no node brings references along, the two views of the flows agree. -/
theorem Reached.consistent {policy : Policy} {root : ElementId} {ledger : Ledger}
    (reached : Reached policy root ledger) (noReferences : policy.rawReferences = false) :
    ledger.Consistent root := by
  refine reached.invariant ⟨⟨Graph.wellFormed_new root, rfl, ?_⟩, ⟨?_, ?_⟩, ?_⟩
    fun _ _ consistent allowed => consistent.record noReferences allowed
  · exact fun _ member => absurd member List.not_mem_nil
  · intro node member
    rw [List.mem_singleton.1 member]
    rfl
  · intro node member
    rw [List.mem_singleton.1 member]
    rfl
  · exact fun _ member => absurd member List.not_mem_nil

/-! ## Reading the two views -/

namespace Ledger.Consistent

variable {root : ElementId} {ledger : Ledger} (consistent : ledger.Consistent root)
include consistent

/-- A node refers to the linked ones among the flows that enter it. -/
theorem incoming_eq {node : Node} (member : node ∈ ledger.graph.nodes) :
    ledger.graph.incoming node.id =
      .ok ((ledger.graph.flowsInto node.id).filter fun flow => ledger.linked flow.id) := by
  have distinct := consistent.wellFormed.distinct
  rw [Graph.incoming, Graph.node?_of_mem distinct member]
  dsimp only
  rw [consistent.connected.incoming node member]
  refine Graph.resolve_map_id distinct node.id fun flow drawn => ?_
  exact List.mem_of_mem_filter (List.mem_of_mem_filter drawn)

/-- A node refers to the linked ones among the flows that leave it. -/
theorem outgoing_eq {node : Node} (member : node ∈ ledger.graph.nodes) :
    ledger.graph.outgoing node.id =
      .ok ((ledger.graph.flowsFrom node.id).filter fun flow => ledger.linked flow.id) := by
  have distinct := consistent.wellFormed.distinct
  rw [Graph.outgoing, Graph.node?_of_mem distinct member]
  dsimp only
  rw [consistent.connected.outgoing node member]
  refine Graph.resolve_map_id distinct node.id fun flow drawn => ?_
  exact List.mem_of_mem_filter (List.mem_of_mem_filter drawn)

end Ledger.Consistent

/-- A flow that is drawn after an edit was drawn before it, unless the edit adds flows. -/
theorem Graph.WellFormed.flow_of_run {graph : Graph} (wellFormed : graph.WellFormed) {edit : Edit}
    {flow : SequenceFlow} (member : flow ∈ (edit.run graph).flows)
    (notLinked : ∀ parent added, edit ≠ .addFlow parent added)
    (notUnlinked : ∀ parent added, edit ≠ .addFlowUnlinked parent added) :
    ∃ before ∈ graph.flows, before.id = flow.id := by
  have described : ∀ {later}, graph.SameShape later → flow ∈ later.flows →
      ∃ before ∈ graph.flows, before.id = flow.id := by
    intro later same present
    obtain ⟨before, beforeMember, alike⟩ := same.symm.exists_flow present
    exact ⟨before, beforeMember, alike.id⟩
  cases edit with
  | addNode parent node =>
      simp only [Edit.run] at member
      cases done : graph.addNode parent node with
      | error error =>
          rw [done] at member
          exact ⟨flow, member, rfl⟩
      | ok added =>
          rw [done] at member
          obtain ⟨_, rfl⟩ := addNode_eq_ok done
          simp only [Except.toOption, Option.getD_some] at member
          rcases mem_flows_hold.1 member with isNode | present
          · cases isNode
          · exact ⟨flow, present, rfl⟩
  | addFlow parent added => exact absurd rfl (notLinked parent added)
  | addFlowUnlinked parent added => exact absurd rfl (notUnlinked parent added)
  | removeFlow id =>
      rcases wellFormed.removeFlow_cases id with ⟨_, removed⟩ | ⟨_, _, _, removed⟩
      · rw [Edit.run, removed] at member
        exact ⟨flow, member, rfl⟩
      · rw [Edit.run, removed] at member
        exact ⟨flow, (mem_flows_without.1 member).1, rfl⟩
  | removeNode id =>
      rcases wellFormed.removeNode_cases id with ⟨_, refused⟩ | ⟨_, absent⟩ | ⟨_, _, _, _, removed⟩
      · rw [Edit.run, refused] at member
        exact ⟨flow, member, rfl⟩
      · rw [Edit.run, absent] at member
        exact ⟨flow, member, rfl⟩
      · rw [Edit.run, removed] at member
        exact ⟨flow, (mem_flows_without.1 member).1, rfl⟩
  | setName id name => exact described (sameShape_updateNode graph id fun _ => rfl) member
  | setDefinitions id definitions =>
      exact described (sameShape_updateNode graph id fun _ => rfl) member
  | changeAttributes id change =>
      exact described (sameShape_changeAttributes graph id change) member
  | changeNodeAttributes id change =>
      exact described (sameShape_updateNode graph id fun _ => rfl) member
  | configureTimer event field value =>
      simp only [Edit.run] at member
      cases done : TimerEvent.configure graph event field value with
      | error error =>
          rw [done] at member
          exact ⟨flow, member, rfl⟩
      | ok outcome =>
          obtain ⟨_, _, changed⟩ := configure_eq_ok done
          simp only [done, changed] at member
          exact described (sameShape_updateNode graph event fun _ => rfl) member

/-- A consistent ledger in which every drawn flow is linked. -/
structure Ledger.FullyLinked (root : ElementId) (ledger : Ledger) : Prop
    extends ledger.Consistent root where
  linked : ∀ flow ∈ ledger.graph.flows, ledger.linked flow.id = true

/-- Edits that add flows only with their references keep every drawn flow linked. -/
theorem Ledger.FullyLinked.record {policy : Policy} {root : ElementId} {ledger : Ledger}
    (fully : ledger.FullyLinked root) (noReferences : policy.rawReferences = false)
    (alwaysLinked : policy.unlinkedFlows = false) {edit : Edit}
    (allowed : policy.Allows ledger edit) : (ledger.record edit).FullyLinked root := by
  refine ⟨fully.toConsistent.record noReferences allowed, fun flow member => ?_⟩
  have kept : ∀ before ∈ ledger.graph.flows, before.id = flow.id →
      ledger.linked flow.id = true :=
    fun before present same => same ▸ fully.linked before present
  cases edit with
  | addFlow parent added =>
      simp only [Ledger.record, Edit.run] at member
      simp only [Ledger.record, Edit.linked]
      cases done : ledger.graph.addFlow parent added with
      | error error =>
          rw [done] at member
          simp [fully.linked flow member]
      | ok later =>
          rw [done] at member
          obtain ⟨_, isDrawn, rfl⟩ := Graph.addFlow_eq_ok done
          obtain ⟨_, _, rfl⟩ := Graph.addFlowUnlinked_eq_ok isDrawn
          rcases Graph.mem_flows_hold.1 member with isAdded | present
          · cases isAdded
            simp [Except.isOk, Except.toBool]
          · simp [fully.linked flow present]
  | addFlowUnlinked parent added =>
      rw [show policy.unlinkedFlows = true from allowed] at alwaysLinked
      cases alwaysLinked
  | _ =>
      obtain ⟨before, present, same⟩ := fully.wellFormed.flow_of_run member
        (fun _ _ => Edit.noConfusion) (fun _ _ => Edit.noConfusion)
      exact kept before present same

/-- Where flows are always added with their references, every drawn flow is linked. -/
theorem Reached.fullyLinked {policy : Policy} {root : ElementId} {ledger : Ledger}
    (reached : Reached policy root ledger) (noReferences : policy.rawReferences = false)
    (alwaysLinked : policy.unlinkedFlows = false) : ledger.FullyLinked root :=
  reached.invariant
    ⟨Reached.new.consistent noReferences, fun _ member => absurd member List.not_mem_nil⟩
    fun _ _ fully allowed => fully.record noReferences alwaysLinked allowed

namespace Ledger.FullyLinked

variable {root : ElementId} {ledger : Ledger} (fully : ledger.FullyLinked root)
include fully

/-- Of flows that are all linked, none is left out of the references. -/
theorem linkedAt_eq (tip : SequenceFlow → ElementId) (id : ElementId) :
    ledger.graph.linkedAt ledger.linked tip id =
      (ledger.graph.flows.filter fun flow => tip flow = id).map SequenceFlow.id := by
  rw [Graph.linkedAt, List.filter_eq_self.2 fun flow drawn =>
    fully.linked flow (List.mem_of_mem_filter drawn)]

/-- A node has as many references to entering flows as flows enter it. -/
theorem length_incoming {node : Node} (member : node ∈ ledger.graph.nodes) :
    node.incoming.length = (ledger.graph.flowsInto node.id).length := by
  rw [fully.connected.incoming node member, fully.linkedAt_eq, List.length_map, Graph.flowsInto]

/-- A node has as many references to leaving flows as flows leave it. -/
theorem length_outgoing {node : Node} (member : node ∈ ledger.graph.nodes) :
    node.outgoing.length = (ledger.graph.flowsFrom node.id).length := by
  rw [fully.connected.outgoing node member, fully.linkedAt_eq, List.length_map, Graph.flowsFrom]

/-- A node refers to exactly the flows that leave it. -/
theorem outgoing_drawn {node : Node} (member : node ∈ ledger.graph.nodes) :
    ledger.graph.outgoing node.id = .ok (ledger.graph.flowsFrom node.id) := by
  rw [fully.outgoing_eq member]
  exact congrArg _ (List.filter_eq_self.2 fun flow drawn =>
    fully.linked flow (List.mem_of_mem_filter drawn))

end Ledger.FullyLinked

end BusinessProcess
