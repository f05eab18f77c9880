import BusinessProcess.Proofs.Graph.Commute
import BusinessProcess.Proofs.Graph.Face
import BusinessProcess.Proofs.History.Undrawing

/-!
# Removals that undo additions

Nothing refers to a node that was just added, so it goes alone. A flow that was just added goes
with what its addition made of the two ends and of the container, and with the references that the
two ends had to its id before.
-/

namespace BusinessProcess

namespace Node

variable {node : Node} {flow : SequenceFlow}

/-- A node without references to a flow has none to lose. -/
theorem unlink_of_not_refersTo (unreferenced : ¬ node.RefersTo flow.id) :
    node.unlink flow.id = node := by
  obtain ⟨notEntering, notLeaving⟩ := not_or.1 unreferenced
  have incoming : node.incoming.filter (· ≠ flow.id) = node.incoming :=
    List.filter_eq_self.2 fun other listed => by
      simpa using fun same : other = flow.id => notEntering (same ▸ listed)
  have outgoing : node.outgoing.filter (· ≠ flow.id) = node.outgoing :=
    List.filter_eq_self.2 fun other listed => by
      simpa using fun same : other = flow.id => notLeaving (same ▸ listed)
  simp only [unlink, incoming, outgoing]

/-- A node that does not list a flow lets it go unchanged exactly if it is no end of the flow that
refers to it. -/
theorem letGo_eq_self_iff (unlisted : flow.id ∉ node.children) : node.letGo flow = node ↔
    (node.id = flow.source ∨ node.id = flow.target → ¬ node.RefersTo flow.id) := by
  constructor
  · intro same isEnd refers
    rw [← same] at refers
    obtain ⟨_, notSource, notTarget⟩ := refersTo_letGo_iff.1 refers
    exact isEnd.elim notSource notTarget
  · intro unreferenced
    unfold letGo
    split
    next isEnd =>
      rw [unlink_of_not_refersTo (unreferenced isEnd), Graph.dropChild_of_not_mem unlisted]
    next => exact Graph.dropChild_of_not_mem unlisted

/-- That a node was made to list a flow leaves no trace. -/
theorem letGo_addChild (node : Node) (flow : SequenceFlow) :
    (node.addChild flow.id).letGo flow = node.letGo flow := by
  have unlisted : ∀ node : Node, (node.addChild flow.id).dropChild flow.id =
      node.dropChild flow.id := by
    intro node
    simp [addChild, dropChild, List.filter_append]
  unfold letGo
  rw [show (node.addChild flow.id).id = node.id from rfl]
  split
  next => exact unlisted (node.unlink flow.id)
  next => exact unlisted node

/-- That the source of a flow was made to refer to it leaves no trace. -/
theorem letGo_linkOutgoing (isSource : node.id = flow.source) :
    (node.linkOutgoing flow.id).letGo flow = node.letGo flow := by
  have forgotten : (node.linkOutgoing flow.id).unlink flow.id = node.unlink flow.id := by
    unfold linkOutgoing
    split
    next => rfl
    next => simp [unlink, List.filter_append]
  rw [letGo, letGo, id_linkOutgoing, if_pos (.inl isSource), if_pos (.inl isSource), forgotten]

/-- That the target of a flow was made to refer to it leaves no trace. -/
theorem letGo_linkIncoming (isTarget : node.id = flow.target) :
    (node.linkIncoming flow.id).letGo flow = node.letGo flow := by
  have forgotten : (node.linkIncoming flow.id).unlink flow.id = node.unlink flow.id := by
    unfold linkIncoming
    split
    next => rfl
    next => simp [unlink, List.filter_append]
  rw [letGo, letGo, id_linkIncoming, if_pos (.inr isTarget), if_pos (.inr isTarget), forgotten]

end Node

namespace Graph

variable {graph left added : Graph} {parent : ElementId}

namespace Undraws

variable {flow : SequenceFlow}

/-- A change of a node that is let go with the flow leaves no trace. -/
theorem of_updateNode {id : ElementId} {change : Node → Node}
    (undraws : (graph.updateNode id change).Undraws flow left)
    (traceless : ∀ node, node.id = id → (change node).letGo flow = node.letGo flow) :
    graph.Undraws flow left where
  root := undraws.root
  flows := undraws.flows
  nodes := by
    rw [undraws.nodes, updateNode, List.map_map]
    apply List.map_congr_left
    intro node _
    rw [Function.comp_apply]
    split
    next isChanged => exact traceless node isChanged
    next => rfl

/-- That a flow is drawn and listed leaves no trace. -/
theorem of_hold (undraws : (graph.hold parent (.flow flow)).Undraws flow left) :
    graph.Undraws flow left := by
  have beforehand : (graph.updateNode parent (·.addChild flow.id)).Undraws flow left :=
    { undraws with
      flows := by
        rw [undraws.flows]
        simp [hold, List.filter_append] }
  exact beforehand.of_updateNode fun node _ => node.letGo_addChild flow

/-- Taking out a flow that is not there changes nothing exactly if its ends do not refer to it. -/
theorem eq_iff (undraws : graph.Undraws flow left) (wellFormed : graph.WellFormed)
    (free : flow.id ∉ graph.ids) : left = graph ↔ ∀ node ∈ graph.nodes,
      node.id = flow.source ∨ node.id = flow.target → ¬ node.RefersTo flow.id := by
  have unlisted : ∀ node ∈ graph.nodes, flow.id ∉ node.children := by
    intro node present isListed
    obtain ⟨element, member, same, _⟩ := wellFormed.listed node present flow.id isListed
    exact free (mem_ids.2 ⟨element, member, same⟩)
  have sameFlows : left.flows = graph.flows := by
    rw [undraws.flows, List.filter_eq_self]
    intro other drawn
    simpa using fun same : other.id = flow.id => free (same ▸ id_mem_of_flow drawn)
  have byNodes : left = graph ↔ left.nodes = graph.nodes :=
    ⟨congrArg Graph.nodes, fun sameNodes => Graph.ext undraws.root sameNodes sameFlows⟩
  calc left = graph
    _ ↔ graph.nodes.map (·.letGo flow) = graph.nodes.map id := by
        rw [byNodes, undraws.nodes, List.map_id]
    _ ↔ ∀ node ∈ graph.nodes, node.letGo flow = node := List.map_inj_left
    _ ↔ _ := forall₂_congr fun node present => Node.letGo_eq_self_iff (unlisted node present)

end Undraws

/-- A node that lists nothing and was just added goes alone. -/
theorem WellFormed.removeNode_of_added (wellFormed : graph.WellFormed) {node : Node}
    (childless : node.children = []) (done : graph.addNode parent node = .ok added) :
    added.removeNode node.id = .ok (some { node with parent := some parent }, graph) := by
  have later := wellFormed.addNode childless done
  obtain ⟨vacant, rfl⟩ := addNode_eq_ok done
  let placed : Node := { node with parent := some parent }
  have member : .node placed ∈ (graph.hold parent (.node placed)).elements :=
    mem_elements_hold_self
  have notRoot : node.id ≠ graph.root := by
    intro isRoot
    obtain ⟨top, topMember, isTop, _⟩ := wellFormed.rooted
    exact vacant.free (isRoot ▸ isTop ▸ id_mem_of_node topMember)
  have loose : ∀ flow ∈ graph.flows, flow.source ≠ node.id ∧ flow.target ≠ node.id := by
    intro flow drawn
    obtain ⟨⟨source, sourceMember, isSource⟩, target, targetMember, isTarget⟩ :=
      wellFormed.joined flow drawn
    constructor
    · intro same
      exact vacant.free (same ▸ isSource ▸ id_mem_of_node sourceMember)
    · intro same
      exact vacant.free (same ▸ isTarget ▸ id_mem_of_node targetMember)
  have restored : (graph.hold parent (.node placed)).without (· = node.id) = graph := by
    rw [without_hold_node_of_doomed _ (decide_eq_true rfl)]
    apply wellFormed.tidy.without_eq_self
    intro id used
    exact decide_eq_false fun same => vacant.free (same ▸ used)
  obtain ⟨removed, _⟩ := later.removeNode_of_isolated (node_mem_elements.1 member)
    (by rwa [root_hold]) childless loose
  rw [removed, restored]

/-- A flow that was just added, with its references or without, is taken out again. -/
theorem WellFormed.removeFlow_of_added (wellFormed : graph.WellFormed) {flow : SequenceFlow}
    (done : graph.addFlow parent flow = .ok added ∨
      graph.addFlowUnlinked parent flow = .ok added) : flow.id ∉ graph.ids ∧ ∃ left,
      added.removeFlow flow.id = (some { flow with parent := some parent }, left) ∧
        graph.Undraws { flow with parent := some parent } left := by
  rcases done with linked | drawn
  · have later := wellFormed.addFlow linked
    obtain ⟨drawn, isDrawn, rfl⟩ := addFlow_eq_ok linked
    obtain ⟨vacant, _, rfl⟩ := addFlowUnlinked_eq_ok isDrawn
    have found := flow?_of_mem later.distinct
      (mem_flows_hold.2 (.inl rfl) : { flow with parent := some parent } ∈ _)
    obtain ⟨removed, undraws⟩ := later.undraws_of_removeFlow found
    -- What the addition did is taken back from its last change to its first.
    have untargeted := undraws.of_updateNode fun node => Node.letGo_linkIncoming
    have unsourced := untargeted.of_updateNode fun node => Node.letGo_linkOutgoing
    exact ⟨vacant.free, _, removed, unsourced.of_hold⟩
  · have later := wellFormed.addFlowUnlinked drawn
    obtain ⟨vacant, _, rfl⟩ := addFlowUnlinked_eq_ok drawn
    have found := flow?_of_mem later.distinct
      (mem_flows_hold.2 (.inl rfl) : { flow with parent := some parent } ∈ _)
    obtain ⟨removed, undraws⟩ := later.undraws_of_removeFlow found
    exact ⟨vacant.free, _, removed, undraws.of_hold⟩

end Graph

/-- In every reached process the removal of what was just added gives back what was added, now
with a parent, and leaves the process as it was: always if a node was added that lists nothing, and
if a flow was added, with its references or without, exactly if neither of its ends referred to its
id before. -/
theorem Reached.removal_undoes_addition {policy : Policy} {root : ElementId} {ledger : Ledger}
    (reached : Reached policy root ledger) (parent : ElementId) :
    (∀ node added, node.children = [] → ledger.graph.addNode parent node = .ok added →
      added.removeNode node.id = .ok (some { node with parent := some parent }, ledger.graph)) ∧
    ∀ flow added, (ledger.graph.addFlow parent flow = .ok added ∨
        ledger.graph.addFlowUnlinked parent flow = .ok added) →
      ∃ left, added.removeFlow flow.id = (some { flow with parent := some parent }, left) ∧
        (left = ledger.graph ↔ ∀ node ∈ ledger.graph.nodes,
          node.id = flow.source ∨ node.id = flow.target → ¬ node.RefersTo flow.id) := by
  have wellFormed := reached.sound.wellFormed
  constructor
  · intro node added childless done
    exact wellFormed.removeNode_of_added childless done
  · intro flow added done
    obtain ⟨free, left, removed, undraws⟩ := wellFormed.removeFlow_of_added done
    have exactly := undraws.eq_iff wellFormed free
    exact ⟨left, removed, exactly⟩

/-- A sub-process in a sub-process that brings a stale reference along goes without a trace, and so
does a flow in it from a task outside to itself, although the task has a stale reference. A flow
under an id that its source referred to before takes that reference along. -/
theorem removal_undoes_addition_of_loop : ∃ ledger, Reached ⟨true, true⟩ ⟨"P"⟩ ledger ∧
    (∃ node added, node.children = [] ∧ node.incoming = [⟨"ghost"⟩] ∧
      ledger.graph.addNode ⟨"S"⟩ node = .ok added ∧
      added.removeNode ⟨"R"⟩ = .ok (some { node with parent := some ⟨"S"⟩ }, ledger.graph)) ∧
    (∃ flow linked drawn, flow.source = flow.target ∧
      ledger.graph.addFlow ⟨"S"⟩ flow = .ok linked ∧
      ledger.graph.addFlowUnlinked ⟨"S"⟩ flow = .ok drawn ∧ linked ≠ drawn ∧
      linked.removeFlow ⟨"F"⟩ = (some { flow with parent := some ⟨"S"⟩ }, ledger.graph) ∧
      drawn.removeFlow ⟨"F"⟩ = (some { flow with parent := some ⟨"S"⟩ }, ledger.graph)) ∧
    ∃ flow added left, ledger.graph.addFlow ⟨"P"⟩ flow = .ok added ∧
      added.removeFlow ⟨"ghost"⟩ = (some { flow with parent := some ⟨"P"⟩ }, left) ∧
      left ≠ ledger.graph := by
  let task : Node := { Node.alone ⟨"T"⟩ (.task .user) with outgoing := [⟨"ghost"⟩] }
  let built := ((Ledger.new ⟨"P"⟩).record
    (.addNode ⟨"P"⟩ (.alone ⟨"S"⟩ (.subProcess false)))).record (.addNode ⟨"P"⟩ task)
  have isBuilt : Reached ⟨true, true⟩ ⟨"P"⟩ built :=
    (Reached.new.addAlone _ _ _).addUnattached _ rfl rfl
  let scope : Node := { Node.alone ⟨"R"⟩ (.subProcess false) with incoming := [⟨"ghost"⟩] }
  let loop : SequenceFlow := .between ⟨"F"⟩ ⟨"T"⟩ ⟨"T"⟩
  let named : SequenceFlow := .between ⟨"ghost"⟩ ⟨"T"⟩ ⟨"S"⟩
  have undone := isBuilt.removal_undoes_addition
  have notNamed : ∀ node ∈ built.graph.nodes,
      node.id = loop.source ∨ node.id = loop.target → ¬ node.RefersTo loop.id := by
    decide
  have isNamed : ¬ ∀ node ∈ built.graph.nodes,
      node.id = named.source ∨ node.id = named.target → ¬ node.RefersTo named.id := by
    decide
  refine ⟨built, isBuilt, ⟨scope, _, rfl, rfl, rfl, (undone ⟨"S"⟩).1 scope _ rfl rfl⟩, ?_, ?_⟩
  · obtain ⟨left, removed, same⟩ := (undone ⟨"S"⟩).2 loop _ (.inl rfl)
    obtain ⟨right, erased, alike⟩ := (undone ⟨"S"⟩).2 loop _ (.inr rfl)
    rw [same.2 notNamed] at removed
    rw [alike.2 notNamed] at erased
    exact ⟨loop, _, _, rfl, rfl, rfl, by decide, removed, erased⟩
  · obtain ⟨left, removed, same⟩ := (undone ⟨"P"⟩).2 named _ (.inl rfl)
    exact ⟨named, _, left, rfl, removed, fun unchanged => isNamed (same.1 unchanged)⟩

end BusinessProcess
