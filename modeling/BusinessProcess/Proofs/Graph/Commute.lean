import BusinessProcess.Proofs.Graph.Erasure
import BusinessProcess.Proofs.Graph.Shape

/-!
# Changes beside an erasure

A change of a process and an erasure can be made in either order, unless the change is about what
is erased; then the erasure leaves no trace of it.
-/

namespace BusinessProcess.Graph

section Erasure

variable {graph : Graph} {doomed : ElementId → Bool} {parent id : ElementId}
  {change : Node → Node}

/-- What is changed about the nodes before an erasure is seen in what is left of them. -/
theorem without_map {change : Node → Node} (left : Node → Node)
    (keeps : ∀ node, (change node).id = node.id)
    (pruned : ∀ node ∈ graph.nodes, doomed node.id = false →
      graph.prune doomed (change node) = left (graph.prune doomed node)) :
    ({ graph with nodes := graph.nodes.map change } : Graph).without doomed =
      { graph.without doomed with nodes := (graph.without doomed).nodes.map left } := by
  apply Graph.ext
  · rfl
  · show ((graph.nodes.map change).filter (!doomed ·.id)).map (graph.prune doomed) =
      ((graph.nodes.filter (!doomed ·.id)).map (graph.prune doomed)).map left
    have kept : (fun node : Node => !doomed node.id) ∘ change = fun node => !doomed node.id :=
      funext fun node => congrArg (!doomed ·) (keeps node)
    rw [List.filter_map, kept, List.map_map, List.map_map]
    refine List.map_congr_left fun node isKept => ?_
    obtain ⟨member, notDoomed⟩ := List.mem_filter.1 isKept
    exact pruned node member (by simpa using notDoomed)
  · rfl

/-- A node is changed before or after an erasure. -/
theorem without_updateNode (keeps : ∀ node, (change node).id = node.id)
    (pruned : ∀ node ∈ graph.nodes, node.id = id → doomed id = false →
      graph.prune doomed (change node) = change (graph.prune doomed node)) :
    (graph.updateNode id change).without doomed =
      (graph.without doomed).updateNode id change := by
  refine without_map _ (fun node => ?_) fun node member kept => ?_
  · split
    next => exact keeps node
    next => rfl
  · by_cases same : node.id = id
    · have stillSame : (graph.prune doomed node).id = id := same
      rw [if_pos same, if_pos stillSame]
      exact pruned node member same (same ▸ kept)
    · have stillOther : (graph.prune doomed node).id ≠ id := same
      rw [if_neg same, if_neg stillOther]

/-- A change of an erased node leaves no trace. -/
theorem without_updateNode_of_doomed (keeps : ∀ node, (change node).id = node.id)
    (gone : doomed id = true) :
    (graph.updateNode id change).without doomed = graph.without doomed := by
  rw [without_updateNode keeps fun _ _ _ kept => absurd (kept.symm.trans gone) Bool.false_ne_true]
  refine updateNode_of_node?_eq_none ?_
  rw [node?_without, if_pos gone]

/-- Attributes of a node are changed before or after an erasure. -/
theorem without_changeAttributes (id : ElementId) (change : Attributes → Attributes) :
    (graph.updateNode id fun node =>
        { node with attributes := change node.attributes }).without doomed =
      (graph.without doomed).updateNode id fun node =>
        { node with attributes := change node.attributes } :=
  without_updateNode (fun _ => rfl) fun _ _ _ _ => rfl

/-- A child that is not erased is listed before or after an erasure. -/
theorem without_addChild {child : ElementId} (kept : doomed child = false) :
    (graph.updateNode parent (·.addChild child)).without doomed =
      (graph.without doomed).updateNode parent (·.addChild child) := by
  refine without_updateNode (fun _ => rfl) fun node _ _ _ => ?_
  simp [prune, Node.addChild, List.filter_append, kept]

/-- Listing a child that is erased leaves no trace. -/
theorem without_addChild_of_doomed {child : ElementId} (gone : doomed child = true) :
    (graph.updateNode parent (·.addChild child)).without doomed = graph.without doomed := by
  refine (without_map (fun node => node) (fun node => ?_) fun node _ _ => ?_).trans ?_
  · split <;> rfl
  · split
    · simp [prune, Node.addChild, List.filter_append, gone]
    · rfl
  · rw [List.map_id']

/-- An added flow joins its ends, and every other flow joins what it joined before. -/
theorem joins_append_flow {flow : SequenceFlow} (free : graph.flow? flow.id = none)
    (reference node : ElementId) :
    ({ graph with flows := graph.flows ++ [flow] } : Graph).joins reference node =
      if reference = flow.id then flow.source = node || flow.target = node
      else graph.joins reference node := by
  rw [joins, flow?_append free]
  split <;> rfl

/-- An added flow does not change what is left of a node, unless the flow is erased and ends
there. -/
theorem prune_append_flow {flow : SequenceFlow} (free : graph.flow? flow.id = none) {node : Node}
    (apart : doomed flow.id = true → flow.source ≠ node.id ∧ flow.target ≠ node.id) :
    ({ graph with flows := graph.flows ++ [flow] } : Graph).prune doomed node =
      graph.prune doomed node := by
  have keeps : ∀ reference, (doomed reference &&
      ({ graph with flows := graph.flows ++ [flow] } : Graph).joins reference node.id) =
        (doomed reference && graph.joins reference node.id) := by
    intro reference
    rw [joins_append_flow free]
    by_cases same : reference = flow.id
    · cases gone : doomed flow.id with
      | false => simp [same, gone]
      | true =>
          obtain ⟨notSource, notTarget⟩ := apart gone
          simp [same, joins, free, notSource, notTarget]
    · rw [if_neg same]
  simp only [prune, keeps]

/-- A node that is not erased is appended before or after an erasure. -/
theorem without_append_node (graph : Graph) {node : Node} (kept : doomed node.id = false)
    (bare : graph.prune doomed node = node) :
    ({ graph with nodes := graph.nodes ++ [node] } : Graph).without doomed =
      { graph.without doomed with nodes := (graph.without doomed).nodes ++ [node] } := by
  apply Graph.ext
  · rfl
  · show ((graph.nodes ++ [node]).filter (!doomed ·.id)).map (graph.prune doomed) = _
    rw [List.filter_append, List.filter_cons_of_pos (by simpa using kept), List.filter_nil,
      List.map_append, List.map_singleton, bare]
    rfl
  · rfl

/-- Appending a node that is erased leaves no trace. -/
theorem without_append_node_of_doomed {node : Node} (gone : doomed node.id = true) :
    ({ graph with nodes := graph.nodes ++ [node] } : Graph).without doomed =
      graph.without doomed := by
  apply Graph.ext
  · rfl
  · show ((graph.nodes ++ [node]).filter (!doomed ·.id)).map (graph.prune doomed) = _
    rw [List.filter_append, List.filter_cons_of_neg (by simpa using gone), List.filter_nil,
      List.append_nil]
    rfl
  · rfl

/-- A flow that is not erased is appended before or after an erasure. -/
theorem without_append_flow (graph : Graph) {flow : SequenceFlow}
    (free : graph.flow? flow.id = none) (kept : doomed flow.id = false) :
    ({ graph with flows := graph.flows ++ [flow] } : Graph).without doomed =
      { graph.without doomed with flows := (graph.without doomed).flows ++ [flow] } := by
  apply Graph.ext
  · rfl
  · refine List.map_congr_left fun node _ => prune_append_flow free fun gone => ?_
    exact absurd (kept.symm.trans gone) Bool.false_ne_true
  · show (graph.flows ++ [flow]).filter (!doomed ·.id) = _
    rw [List.filter_append, List.filter_cons_of_pos (by simpa using kept), List.filter_nil]
    rfl

/-- Appending a flow that is erased leaves no trace if its ends are erased. -/
theorem without_append_flow_of_doomed (graph : Graph) {flow : SequenceFlow}
    (free : graph.flow? flow.id = none) (gone : doomed flow.id = true)
    (source : doomed flow.source = true) (target : doomed flow.target = true) :
    ({ graph with flows := graph.flows ++ [flow] } : Graph).without doomed =
      graph.without doomed := by
  apply Graph.ext
  · rfl
  · refine List.map_congr_left fun node isKept => prune_append_flow free fun _ => ?_
    have kept : doomed node.id = false := by simpa using (List.mem_filter.1 isKept).2
    constructor
    · rintro same
      rw [same, kept] at source
      cases source
    · rintro same
      rw [same, kept] at target
      cases target
  · show (graph.flows ++ [flow]).filter (!doomed ·.id) = _
    rw [List.filter_append, List.filter_cons_of_neg (by simpa using gone), List.filter_nil,
      List.append_nil]
    rfl

/-- A node that lists and refers to nothing and is not erased is held before or after an
erasure. -/
theorem without_hold_node (node : Node) (kept : doomed node.id = false)
    (bare : ∀ before : Graph, before.prune doomed node = node) :
    (graph.hold parent (.node node)).without doomed =
      (graph.without doomed).hold parent (.node node) := by
  have held := without_append_node (graph.updateNode parent (·.addChild node.id)) kept (bare _)
  rw [without_addChild kept] at held
  exact held

/-- A flow that is not erased is held before or after an erasure. -/
theorem without_hold_flow (flow : SequenceFlow) (free : flow.id ∉ graph.ids)
    (kept : doomed flow.id = false) :
    (graph.hold parent (.flow flow)).without doomed =
      (graph.without doomed).hold parent (.flow flow) := by
  have noFlow : graph.flow? flow.id = none := flow?_of_free free
  have held := without_append_flow (graph.updateNode parent (·.addChild flow.id)) noFlow kept
  rw [without_addChild kept] at held
  exact held

/-- Holding a node that is erased leaves no trace. -/
theorem without_hold_node_of_doomed (node : Node) (gone : doomed node.id = true) :
    (graph.hold parent (.node node)).without doomed = graph.without doomed :=
  (without_append_node_of_doomed gone).trans (without_addChild_of_doomed gone)

/-- Holding a flow that is erased leaves no trace if its ends are erased. -/
theorem without_hold_flow_of_doomed (flow : SequenceFlow) (free : flow.id ∉ graph.ids)
    (gone : doomed flow.id = true) (source : doomed flow.source = true)
    (target : doomed flow.target = true) :
    (graph.hold parent (.flow flow)).without doomed = graph.without doomed := by
  have noFlow : graph.flow? flow.id = none := flow?_of_free free
  have dropped := without_append_flow_of_doomed (graph.updateNode parent (·.addChild flow.id))
    noFlow gone source target
  exact dropped.trans (without_addChild_of_doomed gone)

/-- References are made before or after an erasure that spares their flow. -/
theorem without_linkOutgoing {flow : ElementId} (kept : doomed flow = false) :
    (graph.updateNode id (·.linkOutgoing flow)).without doomed =
      (graph.without doomed).updateNode id (·.linkOutgoing flow) := by
  refine without_updateNode (fun node => node.id_linkOutgoing flow) fun node _ _ _ => ?_
  by_cases listed : flow ∈ node.outgoing
  · simp [Node.linkOutgoing, prune, listed, kept]
  · simp [Node.linkOutgoing, prune, listed, kept, List.filter_append]

theorem without_linkIncoming {flow : ElementId} (kept : doomed flow = false) :
    (graph.updateNode id (·.linkIncoming flow)).without doomed =
      (graph.without doomed).updateNode id (·.linkIncoming flow) := by
  refine without_updateNode (fun node => node.id_linkIncoming flow) fun node _ _ _ => ?_
  by_cases listed : flow ∈ node.incoming
  · simp [Node.linkIncoming, prune, listed, kept]
  · simp [Node.linkIncoming, prune, listed, kept, List.filter_append]

end Erasure

end BusinessProcess.Graph
