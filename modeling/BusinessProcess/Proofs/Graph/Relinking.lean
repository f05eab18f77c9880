import BusinessProcess.Proofs.Graph.Unlinked

/-!
# Changes do not look at references to drawn flows

Every change of a process can be made on what is left of it without references to drawn flows, with
the same answer and with the same left over. A flow that is drawn with its references leaves what it
leaves without them, and a node that is removed has lost all its references to drawn flows before it
is given back.
-/

namespace BusinessProcess.Graph

/-! ## Describing elements -/

section Describe

variable (graph : Graph) (id : ElementId)

/-- What is changed about a node beside its references is changed in what is left of it. -/
theorem unlinked_updateNode {change : Node → Node}
    (apart : ∀ node, graph.bare (change node) = change (graph.bare node)) :
    (graph.updateNode id change).unlinked = graph.unlinked.updateNode id change := by
  refine Graph.ext rfl ?_ rfl
  show (graph.nodes.map _).map graph.bare = (graph.nodes.map graph.bare).map _
  rw [List.map_map, List.map_map]
  refine List.map_congr_left fun node _ => ?_
  rw [Function.comp_apply, Function.comp_apply, id_bare]
  split
  · exact apart node
  · rfl

/-- A change of references to drawn flows is not seen in what is left. -/
theorem unlinked_updateNode_of_bare_eq {change : Node → Node}
    (hidden : ∀ node, node.id = id → graph.bare (change node) = graph.bare node) :
    (graph.updateNode id change).unlinked = graph.unlinked := by
  refine Graph.ext rfl ?_ rfl
  show (graph.nodes.map _).map graph.bare = graph.nodes.map graph.bare
  rw [List.map_map]
  refine List.map_congr_left fun node _ => ?_
  rw [Function.comp_apply]
  split
  next same => exact hidden node same
  next => rfl

/-- What is changed about a flow beside its id and its ends is changed in what is left. -/
theorem unlinked_updateFlow {change : SequenceFlow → SequenceFlow}
    (sameId : ∀ flow, (change flow).id = flow.id)
    (sameSource : ∀ flow, (change flow).source = flow.source)
    (sameTarget : ∀ flow, (change flow).target = flow.target) :
    (graph.updateFlow id change).unlinked = graph.unlinked.updateFlow id change := by
  have found : ∀ reference, (graph.updateFlow id change).flow? reference =
      (graph.flow? reference).map fun flow => if flow.id = id then change flow else flow := by
    intro reference
    simp only [flow?, updateFlow, List.find?_map]
    congr 2
    funext flow
    simp only [Function.comp_apply, apply_ite SequenceFlow.id, sameId, ite_self]
  have enters : ∀ flow node, (graph.updateFlow id change).enters flow node =
      graph.enters flow node := by
    intro flow node
    simp only [Graph.enters, found, Option.any_map]
    congr 1
    funext drawn
    simp only [apply_ite SequenceFlow.target, sameTarget, ite_self]
  have leaves : ∀ flow node, (graph.updateFlow id change).leaves flow node =
      graph.leaves flow node := by
    intro flow node
    simp only [Graph.leaves, found, Option.any_map]
    congr 1
    funext drawn
    simp only [apply_ite SequenceFlow.source, sameSource, ite_self]
  refine Graph.ext rfl ?_ rfl
  show graph.nodes.map (graph.updateFlow id change).bare = graph.nodes.map graph.bare
  refine List.map_congr_left fun node _ => ?_
  simp only [bare, enters, leaves]

theorem unlinked_changeAttributes (change : Attributes → Attributes) :
    (graph.changeAttributes id change).unlinked = graph.unlinked.changeAttributes id change := by
  rw [changeAttributes, changeAttributes, element?_unlinked]
  cases graph.element? id with
  | none => rfl
  | some element =>
      cases element with
      | node node => exact unlinked_updateNode graph id fun _ => rfl
      | flow flow =>
          exact unlinked_updateFlow graph id (fun _ => rfl) (fun _ => rfl) fun _ => rfl

/-- A timer event is configured in what is left of the process as it is in the process. -/
theorem configure_unlinked (field : TimerEvent.Field) (value : Option String) :
    TimerEvent.configure graph.unlinked id field value =
      (TimerEvent.configure graph id field value).map
        fun (expression, changed) => (expression, changed.unlinked) := by
  have waits : ∀ node, TimerEvent.isTimerEvent (graph.bare node) =
      TimerEvent.isTimerEvent node := fun _ => rfl
  rw [TimerEvent.configure, TimerEvent.configure, node?_unlinked]
  cases graph.node? id with
  | none => rfl
  | some node =>
      simp only [Option.map_some, waits, attributes_bare]
      split
      · rfl
      split
      · rfl
      · refine congrArg Except.ok (Prod.ext rfl ?_)
        dsimp only
        rw [unlinked_updateNode graph id]
        exact fun _ => rfl

end Describe

/-! ## Adding elements -/

section Add

variable {graph : Graph} {parent : ElementId}

@[simp] theorem checkAddition_unlinked (graph : Graph) (parent id : ElementId) :
    graph.unlinked.checkAddition parent id = graph.checkAddition parent id := by
  rw [checkAddition, checkAddition, contains_unlinked, node?_unlinked]
  cases graph.node? parent <;> rfl

private theorem addChildIf_bare (graph : Graph) (parent child : ElementId) (node : Node) :
    (if (graph.bare node).id = parent then (graph.bare node).addChild child
      else graph.bare node) =
      graph.bare (if node.id = parent then node.addChild child else node) := by
  rw [id_bare]
  split <;> rfl

/-- Whether a node may be added, and what is left of the process then, can be told from what is left
of the process. -/
theorem map_unlinked_addNode (graph : Graph) (parent : ElementId) (node : Node) :
    (graph.unlinked.addNode parent node).map unlinked =
      (graph.addNode parent node).map unlinked := by
  rw [addNode, addNode, checkAddition_unlinked]
  cases graph.checkAddition parent node.id with
  | error error => rfl
  | ok =>
      refine congrArg Except.ok (Graph.ext rfl ?_ rfl)
      show (((graph.nodes.map graph.bare).map _) ++ [_]).map graph.bare =
        ((graph.nodes.map _) ++ [_]).map graph.bare
      rw [List.map_append, List.map_append, List.map_map, List.map_map, List.map_map]
      refine congrArg (· ++ _) (List.map_congr_left fun held _ => ?_)
      rw [Function.comp_apply, Function.comp_apply, addChildIf_bare]
      exact bare_bare graph _

/-- What is drawn before a flow is added is drawn afterwards. -/
private theorem bare_bare_of_added {later : Graph} {flow : SequenceFlow}
    (added : later.flows = graph.flows ++ [flow]) (free : graph.flow? flow.id = none)
    (node : Node) : later.bare (graph.bare node) = later.bare node := by
  have kept : ∀ {reference drawn}, graph.flow? reference = some drawn →
      later.flow? reference = some drawn := by
    intro reference drawn found
    have differs : reference ≠ flow.id := by
      rintro rfl
      rw [free] at found
      cases found
    have look : later.flow? reference =
        ({ graph with flows := graph.flows ++ [flow] } : Graph).flow? reference := by
      rw [flow?, added]
      rfl
    rw [look, flow?_append free, if_neg differs, found]
  refine bare_bare_of_imp (fun reference id entered => ?_) (fun reference id left => ?_) node
  · obtain ⟨drawn, found, isTarget⟩ := enters_iff.1 entered
    exact enters_iff.2 ⟨drawn, kept found, isTarget⟩
  · obtain ⟨drawn, found, isSource⟩ := leaves_iff.1 left
    exact leaves_iff.2 ⟨drawn, kept found, isSource⟩

/-- Whether a flow may be drawn, and what is left of the process then, can be told from what is left
of the process. -/
theorem map_unlinked_addFlowUnlinked (graph : Graph) (parent : ElementId) (flow : SequenceFlow) :
    (graph.unlinked.addFlowUnlinked parent flow).map unlinked =
      (graph.addFlowUnlinked parent flow).map unlinked := by
  rw [addFlowUnlinked, addFlowUnlinked, checkAddition_unlinked]
  cases checked : graph.checkAddition parent flow.id with
  | error error => rfl
  | ok =>
      simp only [node?_unlinked, Option.isNone_map]
      split
      · rfl
      split
      · rfl
      have free : graph.flow? ({ flow with parent := some parent } : SequenceFlow).id = none :=
        flow?_of_free (checkAddition_eq_ok checked).free
      refine congrArg Except.ok (Graph.ext rfl ?_ rfl)
      show ((graph.nodes.map graph.bare).map _).map (Graph.bare _) =
        (graph.nodes.map _).map (Graph.bare _)
      rw [List.map_map, List.map_map, List.map_map]
      refine List.map_congr_left fun held _ => ?_
      rw [Function.comp_apply, Function.comp_apply, Function.comp_apply, addChildIf_bare]
      exact bare_bare_of_added rfl free _

/-- A reference to a flow that enters a node is not seen in what is left of it. -/
theorem bare_linkIncoming {flow : ElementId} {node : Node}
    (entered : graph.enters flow node.id = true) :
    graph.bare (node.linkIncoming flow) = graph.bare node := by
  unfold Node.linkIncoming
  split
  · rfl
  · simp [bare, List.filter_append, entered]

theorem bare_linkOutgoing {flow : ElementId} {node : Node}
    (left : graph.leaves flow node.id = true) :
    graph.bare (node.linkOutgoing flow) = graph.bare node := by
  unfold Node.linkOutgoing
  split
  · rfl
  · simp [bare, List.filter_append, left]

/-- A flow is refused with its references if it is refused without them, and otherwise the processes
are drawn alike. -/
theorem addFlow_alike (graph : Graph) (parent : ElementId) (flow : SequenceFlow) :
    (graph.addFlow parent flow).map unlinked =
      (graph.addFlowUnlinked parent flow).map unlinked := by
  rw [addFlow]
  cases done : graph.addFlowUnlinked parent flow with
  | error error => rfl
  | ok drawn =>
      refine congrArg Except.ok ?_
      have found : drawn.flow? flow.id = some { flow with parent := some parent } := by
        obtain ⟨vacant, _, rfl⟩ := addFlowUnlinked_eq_ok done
        have free : graph.flow? ({ flow with parent := some parent } : SequenceFlow).id = none :=
          flow?_of_free vacant.free
        exact (flow?_append free flow.id).trans (if_pos rfl)
      rw [unlinked_updateNode_of_bare_eq _ _ fun node isTarget => bare_linkIncoming ?_,
        unlinked_updateNode_of_bare_eq _ _ fun node isSource => bare_linkOutgoing ?_]
      · simp [Graph.leaves, found, isSource]
      · show drawn.enters flow.id node.id = true
        simp [Graph.enters, found, isTarget]

theorem map_unlinked_addFlow (graph : Graph) (parent : ElementId) (flow : SequenceFlow) :
    (graph.unlinked.addFlow parent flow).map unlinked =
      (graph.addFlow parent flow).map unlinked := by
  rw [addFlow_alike, addFlow_alike, map_unlinked_addFlowUnlinked]

end Add

/-! ## Removing elements -/

section Remove

variable {graph : Graph}

theorem unlinked_updateParent (graph : Graph) (parent : Option ElementId) (child : ElementId) :
    (graph.updateParent parent (·.dropChild child)).unlinked =
      graph.unlinked.updateParent parent (·.dropChild child) := by
  cases parent with
  | none => rfl
  | some id => exact unlinked_updateNode graph id fun _ => rfl

section Erased

variable {flow : SequenceFlow} {erased : Graph}
  (isErased : erased.flows = graph.flows.filter fun other => other.id ≠ flow.id)
include isErased

private theorem flow?_of_erased (reference : ElementId) : erased.flow? reference =
    if reference = flow.id then none else graph.flow? reference := by
  have kept := find?_filter_key SequenceFlow.id graph.flows (· = flow.id) reference
  simpa [flow?, isErased] using kept

private theorem enters_of_erased (reference node : ElementId) : erased.enters reference node =
    (decide (reference ≠ flow.id) && graph.enters reference node) := by
  by_cases same : reference = flow.id <;> simp [enters, flow?_of_erased isErased, same]

private theorem leaves_of_erased (reference node : ElementId) : erased.leaves reference node =
    (decide (reference ≠ flow.id) && graph.leaves reference node) := by
  by_cases same : reference = flow.id <;> simp [leaves, flow?_of_erased isErased, same]

/-- Once a flow is erased, the references of its ends to it are not among those to drawn flows and
have to be dropped on their own. -/
private theorem bare_unlink_ends (found : graph.flow? flow.id = some flow) (node : Node) :
    erased.bare (if node.id = flow.source ∨ node.id = flow.target then node.unlink flow.id
      else node) =
      if node.id = flow.source ∨ node.id = flow.target then (graph.bare node).unlink flow.id
      else graph.bare node := by
  by_cases atEnd : node.id = flow.source ∨ node.id = flow.target
  · have absorbed : ∀ reference drawn, (!(decide (reference ≠ flow.id) && drawn) &&
        decide (reference ≠ flow.id)) = (decide (reference ≠ flow.id) && !drawn) := by
      intro reference drawn
      by_cases same : reference = flow.id <;> simp [same]
    rw [if_pos atEnd, if_pos atEnd]
    simp only [bare, Node.unlink, List.filter_filter, enters_of_erased isErased,
      leaves_of_erased isErased, absorbed]
  · obtain ⟨notSource, notTarget⟩ := not_or.1 atEnd
    have entersElsewhere : ∀ reference, erased.enters reference node.id =
        graph.enters reference node.id := by
      intro reference
      rw [enters_of_erased isErased]
      by_cases same : reference = flow.id <;> simp [same, Graph.enters, found, Ne.symm notTarget]
    have leavesElsewhere : ∀ reference, erased.leaves reference node.id =
        graph.leaves reference node.id := by
      intro reference
      rw [leaves_of_erased isErased]
      by_cases same : reference = flow.id <;> simp [same, Graph.leaves, found, Ne.symm notSource]
    rw [if_neg atEnd, if_neg atEnd]
    simp only [bare, entersElsewhere, leavesElsewhere]

end Erased

/-- A flow is removed from what is left of the process as it is from the process. -/
theorem removeFlow_unlinked (graph : Graph) (id : ElementId) :
    graph.unlinked.removeFlow id = ((graph.removeFlow id).1, (graph.removeFlow id).2.unlinked) := by
  rw [removeFlow, removeFlow, flow?_unlinked]
  cases found : graph.flow? id with
  | none => rfl
  | some flow =>
      obtain rfl := id_of_flow? found
      let erased : Graph :=
        { graph with flows := graph.flows.filter fun other => other.id ≠ flow.id }
      refine Prod.ext rfl ?_
      dsimp only
      rw [unlinked_updateParent]
      refine congrArg (updateParent · flow.parent (·.dropChild flow.id)) (Graph.ext rfl ?_ rfl)
      show ((graph.nodes.map graph.bare).map _).map _ = ((graph.nodes.map _).map _).map _
      simp only [List.map_map]
      refine List.map_congr_left fun node _ => ?_
      simp only [Function.comp_apply]
      refine (unlink_ends (graph.bare node) flow.source flow.target flow.id).trans ?_
      refine (bare_unlink_ends (show erased.flows = _ from rfl) found node).symm.trans ?_
      exact congrArg erased.bare (unlink_ends node flow.source flow.target flow.id).symm

/-- Several flows are removed from what is left of the process as they are from the process. -/
theorem removeFlows_unlinked (graph : Graph) (ids : List ElementId) :
    graph.unlinked.removeFlows ids = (graph.removeFlows ids).unlinked := by
  induction ids generalizing graph with
  | nil => rfl
  | cons id rest inductionHypothesis =>
      have first := congrArg Prod.snd (removeFlow_unlinked graph id)
      refine Eq.trans ?_ (inductionHypothesis (graph.removeFlow id).2)
      exact congrArg (removeFlows · rest) first

theorem detachNode_unlinked (graph : Graph) (id : ElementId) :
    graph.unlinked.detachNode id =
      ((graph.detachNode id).1.map graph.bare, (graph.detachNode id).2.unlinked) := by
  rw [detachNode, detachNode, node?_unlinked]
  cases graph.node? id with
  | none => rfl
  | some node =>
      refine Prod.ext rfl ?_
      show updateParent _ node.parent _ = (updateParent _ node.parent _).unlinked
      rw [unlinked_updateParent]
      refine congrArg (updateParent · node.parent (·.dropChild id)) (Graph.ext rfl ?_ rfl)
      show (graph.nodes.map graph.bare).filter _ = (graph.nodes.filter _).map graph.bare
      rw [List.filter_map]
      rfl

theorem foldl_detachNode_unlinked (graph : Graph) (ids : List ElementId) :
    ids.foldl (fun graph id => (graph.detachNode id).2) graph.unlinked =
      (ids.foldl (fun graph id => (graph.detachNode id).2) graph).unlinked := by
  induction ids generalizing graph with
  | nil => rfl
  | cons id rest inductionHypothesis =>
      rw [List.foldl_cons, List.foldl_cons, detachNode_unlinked, inductionHypothesis]

theorem nodesBelow_unlinked (graph : Graph) (depth : Nat) (id : ElementId) :
    graph.unlinked.nodesBelow depth id = graph.nodesBelow depth id := by
  induction depth generalizing id with
  | zero => rfl
  | succ depth inductionHypothesis =>
      simp only [nodesBelow, childNodes_unlinked, List.flatMap_map, id_bare, inductionHypothesis]

theorem subtree_unlinked (graph : Graph) (id : ElementId) :
    graph.unlinked.subtree id = graph.subtree id := by
  have count : graph.unlinked.nodes.length = graph.nodes.length := List.length_map _
  rw [subtree, subtree, count, nodesBelow_unlinked]

theorem flows_detachNode (graph : Graph) (id : ElementId) :
    (graph.detachNode id).2.flows = graph.flows := by
  unfold detachNode
  split
  · rfl
  · rw [flows_updateParent]

theorem flows_foldl_detachNode (graph : Graph) (ids : List ElementId) :
    (ids.foldl (fun graph id => (graph.detachNode id).2) graph).flows = graph.flows := by
  induction ids generalizing graph with
  | nil => rfl
  | cons id rest inductionHypothesis =>
      rw [List.foldl_cons, inductionHypothesis, flows_detachNode]

/-- A flow that outlives a removal is another one. -/
theorem mem_flows_of_removeFlow {id : ElementId} {flow : SequenceFlow}
    (member : flow ∈ (graph.removeFlow id).2.flows) : flow ∈ graph.flows ∧ flow.id ≠ id := by
  cases found : graph.flow? id with
  | none =>
      rw [removeFlow_of_flow?_eq_none found] at member
      refine ⟨member, fun same => ?_⟩
      have absent := List.find?_eq_none.1 found flow member
      simp [same] at absent
  | some removed =>
      rw [removeFlow, found] at member
      rw [flows_updateParent] at member
      simpa using List.mem_filter.1 member

theorem mem_flows_of_removeFlows {ids : List ElementId} {flow : SequenceFlow}
    (member : flow ∈ (graph.removeFlows ids).flows) : flow ∈ graph.flows ∧ flow.id ∉ ids := by
  induction ids generalizing graph with
  | nil => exact ⟨member, List.not_mem_nil⟩
  | cons id rest inductionHypothesis =>
      obtain ⟨later, notRest⟩ := inductionHypothesis member
      obtain ⟨present, differs⟩ := mem_flows_of_removeFlow later
      exact ⟨present, List.not_mem_cons_of_ne_of_not_mem differs notRest⟩

/-- A node that no drawn flow joins refers to none as drawn. -/
theorem bare_of_apart {node : Node}
    (apart : ∀ flow ∈ graph.flows, flow.source ≠ node.id ∧ flow.target ≠ node.id) :
    graph.bare node = node := by
  have notEntered : ∀ reference, graph.enters reference node.id = false := by
    intro reference
    rw [← Bool.not_eq_true, enters_iff]
    rintro ⟨flow, found, isTarget⟩
    exact (apart flow (mem_of_flow? found)).2 isTarget
  have notLeft : ∀ reference, graph.leaves reference node.id = false := by
    intro reference
    rw [← Bool.not_eq_true, leaves_iff]
    rintro ⟨flow, found, isSource⟩
    exact (apart flow (mem_of_flow? found)).1 isSource
  simp only [bare, notEntered, notLeft, Bool.not_false, List.filter_true]

/-- A node is removed from what is left of the process as it is from the process. All flows at the
node are removed before it, so the node that is given back has no references to them any more. -/
theorem removeNode_unlinked (graph : Graph) (id : ElementId) :
    graph.unlinked.removeNode id =
      (graph.removeNode id).map fun (removed, left) => (removed, left.unlinked) := by
  rw [removeNode, removeNode, root_unlinked, node?_unlinked, subtree_unlinked, flows_unlinked]
  split
  · rfl
  cases graph.node? id with
  | none => rfl
  | some node =>
      dsimp only [Option.map_some]
      rw [removeFlows_unlinked, foldl_detachNode_unlinked, detachNode_unlinked]
      refine congrArg Except.ok (Prod.ext ?_ rfl)
      let emptied := (graph.subtree id).tail.reverse.foldl
        (fun graph id => (graph.detachNode id).2) (graph.removeFlows (graph.touching id))
      show (emptied.detachNode id).1.map emptied.bare = (emptied.detachNode id).1
      rw [detachNode_fst]
      cases found : emptied.node? id with
      | none => rfl
      | some left =>
          -- Whatever joins the node touches what is removed.
          refine congrArg some (bare_of_apart fun flow member => ?_)
          rw [show emptied.flows = _ from flows_foldl_detachNode _ _] at member
          obtain ⟨drawn, untouched⟩ := mem_flows_of_removeFlows member
          rw [id_of_node? found, ← not_or]
          intro joins
          refine untouched (List.mem_map_of_mem (List.mem_filter.2 ⟨drawn, ?_⟩))
          have inside : id ∈ graph.subtree id := by
            rw [subtree]
            cases graph.nodes.length <;> exact List.mem_cons_self
          rcases joins with rfl | rfl <;> simp [touches, inside]

end Remove

end BusinessProcess.Graph
