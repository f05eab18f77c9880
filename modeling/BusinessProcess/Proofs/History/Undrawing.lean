import BusinessProcess.Proofs.History.Connectivity
import BusinessProcess.Proofs.History.Removal

/-!
# Flows taken out of every process

The removal of a flow goes to three places: the two ends of the flow and its container. Whatever a
process has been through, no other node lists the flow, but nodes that brought references along may
refer to it. `Undraws` describes what a removal leaves, and `removeFlow_undraws` says which
references are left over.
-/

namespace BusinessProcess

/-- Whether a node refers to a flow as entering or as leaving it. -/
def Node.RefersTo (node : Node) (flow : ElementId) : Prop :=
  flow ∈ node.incoming ∨ flow ∈ node.outgoing

instance (node : Node) (flow : ElementId) : Decidable (node.RefersTo flow) :=
  inferInstanceAs (Decidable (_ ∨ _))

/-- The node without the flow among its children and, if it is one of the two ends, without
references to it. -/
def Node.letGo (node : Node) (flow : SequenceFlow) : Node :=
  (if node.id = flow.source ∨ node.id = flow.target then node.unlink flow.id else node).dropChild
    flow.id

/-- A node that let a flow go does not list it. -/
theorem Node.not_mem_children_letGo (node : Node) (flow : SequenceFlow) :
    flow.id ∉ (node.letGo flow).children := by
  simp [Node.letGo, Node.dropChild]

/-- A node that let a flow go refers to it only if it did before and is no end of the flow. -/
theorem Node.refersTo_letGo_iff {node : Node} {flow : SequenceFlow} :
    (node.letGo flow).RefersTo flow.id ↔
      node.RefersTo flow.id ∧ node.id ≠ flow.source ∧ node.id ≠ flow.target := by
  unfold Node.letGo
  split
  next isEnd =>
    have nothing : ¬ ((node.unlink flow.id).dropChild flow.id).RefersTo flow.id := by
      simp [Node.RefersTo, Node.unlink, Node.dropChild]
    apply iff_of_false nothing
    rintro ⟨_, notSource, notTarget⟩
    exact isEnd.elim notSource notTarget
  next noEnd => exact (and_iff_left (not_or.1 noEnd)).symm

namespace Graph

/-- The process `left` is what is left of `graph` when a flow is taken out. -/
structure Undraws (graph : Graph) (flow : SequenceFlow) (left : Graph) : Prop where
  root : left.root = graph.root
  /-- The other flows stay as they are, in their order. -/
  flows : left.flows = graph.flows.filter fun other => other.id ≠ flow.id
  /-- Every node stays in its place and lets the flow go. -/
  nodes : left.nodes = graph.nodes.map (·.letGo flow)

namespace Undraws

variable {graph left : Graph} {flow : SequenceFlow} (undraws : graph.Undraws flow left)
include undraws

theorem flow?_eq_none : left.flow? flow.id = none := by
  refine List.find?_eq_none.2 fun other member => ?_
  rw [undraws.flows] at member
  simpa using (List.mem_filter.1 member).2

theorem not_listed : ∀ node ∈ left.nodes, flow.id ∉ node.children := by
  rw [undraws.nodes, List.forall_mem_map]
  exact fun node _ => node.not_mem_children_letGo flow

/-- Nothing refers to the flow any more exactly if nothing but its ends did. -/
theorem unreferenced_iff : (∀ node ∈ left.nodes, ¬ node.RefersTo flow.id) ↔
    ∀ node ∈ graph.nodes, node.RefersTo flow.id →
      node.id = flow.source ∨ node.id = flow.target := by
  rw [undraws.nodes, List.forall_mem_map]
  refine forall₂_congr fun node _ => ?_
  rw [Node.refersTo_letGo_iff, not_and, ← not_or, not_not]

end Undraws

/-- Removing a flow of a well-formed process takes it out and gives it back. -/
theorem WellFormed.undraws_of_removeFlow {graph : Graph} (wellFormed : graph.WellFormed)
    {id : ElementId} {flow : SequenceFlow} (found : graph.flow? id = some flow) :
    graph.removeFlow id = (some flow, (graph.removeFlow id).2) ∧
      graph.Undraws flow (graph.removeFlow id).2 := by
  obtain rfl := id_of_flow? found
  have drawn := mem_of_flow? found
  rw [wellFormed.removeFlow_eq found]
  refine ⟨rfl, rfl, by simp [Graph.without], ?_⟩
  have allStay : (graph.nodes.filter fun node => !decide (node.id = flow.id)) = graph.nodes :=
    List.filter_eq_self.2 fun node present => by
      simpa using id_ne_of_mem wellFormed.distinct present drawn
  rw [Graph.without, allStay]
  exact List.map_congr_left fun node _ => prune_flow node found

end Graph

/-- As long as no node brings references along, only the two ends of a flow refer to it. -/
theorem Ledger.Consistent.isEnd_of_refersTo {root : ElementId} {ledger : Ledger}
    (consistent : ledger.Consistent root) {flow : SequenceFlow}
    (drawn : flow ∈ ledger.graph.flows) {node : Node} (present : node ∈ ledger.graph.nodes)
    (refers : node.RefersTo flow.id) : node.id = flow.source ∨ node.id = flow.target := by
  have isEnd : ∀ {tip : SequenceFlow → ElementId},
      flow.id ∈ ledger.graph.linkedAt ledger.linked tip node.id → node.id = tip flow := by
    intro tip linked
    obtain ⟨other, otherDrawn, atNode, _, sameId⟩ := Graph.mem_linkedAt.1 linked
    cases Graph.eq_of_id_eq consistent.wellFormed.distinct (Graph.flow_mem_elements.2 otherDrawn)
      (Graph.flow_mem_elements.2 drawn) sameId
    exact atNode.symm
  rcases refers with entering | leaving
  · rw [consistent.connected.incoming node present] at entering
    exact .inr (isEnd entering)
  · rw [consistent.connected.outgoing node present] at leaving
    exact .inl (isEnd leaving)

/-- In every reached process the removal of a flow that is not there finds nothing and changes
nothing. A flow that is there comes back as it was and is taken out, and no node lists it any more.
References to it are left over exactly if a node that is neither its source nor its target refers
to it, which never happens as long as no node brings references along. -/
theorem Reached.removeFlow_undraws {policy : Policy} {root : ElementId} {ledger : Ledger}
    (reached : Reached policy root ledger) (id : ElementId) :
    (ledger.graph.flow? id = none → ledger.graph.removeFlow id = (none, ledger.graph)) ∧
    ∀ flow, ledger.graph.flow? id = some flow → ∃ left,
      ledger.graph.removeFlow id = (some flow, left) ∧ ledger.graph.Undraws flow left ∧
        left.flow? id = none ∧ (∀ node ∈ left.nodes, id ∉ node.children) ∧
        ((∀ node ∈ left.nodes, ¬ node.RefersTo id) ↔
          ∀ node ∈ ledger.graph.nodes, node.RefersTo id →
            node.id = flow.source ∨ node.id = flow.target) ∧
        (policy.rawReferences = false → ∀ node ∈ left.nodes, ¬ node.RefersTo id) := by
  refine ⟨Graph.removeFlow_of_flow?_eq_none, fun flow found => ?_⟩
  obtain rfl := Graph.id_of_flow? found
  obtain ⟨removed, undraws⟩ := reached.sound.wellFormed.undraws_of_removeFlow found
  refine ⟨_, removed, undraws, undraws.flow?_eq_none, undraws.not_listed,
    undraws.unreferenced_iff, fun noReferences => ?_⟩
  exact undraws.unreferenced_iff.2 fun node =>
    (reached.consistent noReferences).isEnd_of_refersTo (Graph.mem_of_flow? found)

/-- A flow in a sub-process, from a task outside to itself, goes with both of its references. What
another task refers to besides is left. -/
theorem undraws_of_loop : ∃ ledger, Reached ⟨true, true⟩ ⟨"P"⟩ ledger ∧
    ∃ flow left, ledger.graph.flow? ⟨"F"⟩ = some flow ∧ flow.source = flow.target ∧
      ledger.graph.removeFlow ⟨"F"⟩ = (some flow, left) ∧ ledger.graph.Undraws flow left ∧
      (∀ node ∈ left.nodes, ¬ node.RefersTo ⟨"F"⟩) ∧
      ∃ node ∈ left.nodes, node.RefersTo ⟨"ghost"⟩ := by
  let task : Node := { Node.alone ⟨"U"⟩ (.task .user) with outgoing := [⟨"ghost"⟩] }
  let tasks := (((Ledger.new ⟨"P"⟩).record
    (.addNode ⟨"P"⟩ (.alone ⟨"S"⟩ (.subProcess false)))).record
    (.addNode ⟨"P"⟩ (.alone ⟨"T"⟩ (.task .user)))).record (.addNode ⟨"P"⟩ task)
  let built := tasks.record (.addFlow ⟨"S"⟩ (.between ⟨"F"⟩ ⟨"T"⟩ ⟨"T"⟩))
  have isBuilt : Reached ⟨true, true⟩ ⟨"P"⟩ built :=
    .edit (((Reached.new.addAlone _ _ _).addAlone _ _ _).addUnattached _ rfl rfl) trivial
  let flow : SequenceFlow := { SequenceFlow.between ⟨"F"⟩ ⟨"T"⟩ ⟨"T"⟩ with parent := some ⟨"S"⟩ }
  have found : built.graph.flow? ⟨"F"⟩ = some flow := by decide
  obtain ⟨left, removed, undraws, _, _, unreferenced, _⟩ :=
    (isBuilt.removeFlow_undraws ⟨"F"⟩).2 flow found
  have isLeft : (built.graph.removeFlow ⟨"F"⟩).2 = left := congrArg Prod.snd removed
  refine ⟨built, isBuilt, flow, left, found, rfl, removed, undraws, unreferenced.2 ?_, ?_⟩
  · decide
  · rw [← isLeft]
    decide

/-- A task brings along a reference to a flow that is then drawn between two other tasks. When the
flow is removed the reference stays. -/
theorem not_unreferenced_of_bystander : ∃ ledger, Reached ⟨true, true⟩ ⟨"P"⟩ ledger ∧
    ∃ flow left, ledger.graph.flow? ⟨"F"⟩ = some flow ∧
      ledger.graph.removeFlow ⟨"F"⟩ = (some flow, left) ∧ left.flow? ⟨"F"⟩ = none ∧
      ∃ node ∈ left.nodes, node.id = ⟨"X"⟩ ∧ ⟨"F"⟩ ∈ node.outgoing := by
  let bystander : Node := { Node.alone ⟨"X"⟩ (.task .user) with outgoing := [⟨"F"⟩] }
  let tasks := (((Ledger.new ⟨"P"⟩).record
    (.addNode ⟨"P"⟩ (.alone ⟨"A"⟩ (.task .user)))).record
    (.addNode ⟨"P"⟩ (.alone ⟨"B"⟩ (.task .user)))).record (.addNode ⟨"P"⟩ bystander)
  have isBuilt : Reached ⟨true, true⟩ ⟨"P"⟩
      (tasks.record (.addFlow ⟨"P"⟩ (.between ⟨"F"⟩ ⟨"A"⟩ ⟨"B"⟩))) :=
    .edit (((Reached.new.addAlone _ _ _).addAlone _ _ _).addUnattached _ rfl rfl) trivial
  let flow : SequenceFlow := { SequenceFlow.between ⟨"F"⟩ ⟨"A"⟩ ⟨"B"⟩ with parent := some ⟨"P"⟩ }
  refine ⟨_, isBuilt, flow, _, by decide, Prod.ext (by decide) rfl, by decide, ?_⟩
  decide

end BusinessProcess
