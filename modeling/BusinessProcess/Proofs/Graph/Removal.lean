import BusinessProcess.Proofs.Graph.Without

/-!
# Removals as erasures

`Tidy` is what the step-by-step removals rely on: no id is used twice and a node lists nothing but
its own children. Every erasure keeps it, so removals that follow each other add up to one.
-/

namespace BusinessProcess.Graph

/-- No id is used twice, and what a node lists are elements that name it as their parent. -/
structure Tidy (graph : Graph) : Prop where
  distinct : graph.ids.Nodup
  listed : ∀ container ∈ graph.nodes, ∀ child ∈ container.children,
    ∃ element ∈ graph.elements, element.id = child ∧ element.parent = some container.id

/-- An element that is not doomed is still there, at most pruned. -/
theorem exists_mem_elements_without {graph : Graph} {doomed : ElementId → Bool} {element : Element}
    (member : element ∈ graph.elements) (kept : doomed element.id = false) :
    ∃ left ∈ (graph.without doomed).elements,
      left.id = element.id ∧ left.parent = element.parent := by
  cases element with
  | node node =>
      have present := mem_nodes_without.2 ⟨node, node_mem_elements.1 member, kept, rfl⟩
      exact ⟨.node (graph.prune doomed node), node_mem_elements.2 present, rfl, rfl⟩
  | flow flow =>
      have present := mem_flows_without.2 ⟨flow_mem_elements.1 member, kept⟩
      exact ⟨.flow flow, flow_mem_elements.2 present, rfl, rfl⟩

namespace Tidy

variable {graph : Graph}

/-- Whatever is erased, the rest is tidy. -/
theorem without (tidy : graph.Tidy) (doomed : ElementId → Bool) : (graph.without doomed).Tidy where
  distinct := by
    rw [ids_without]
    exact tidy.distinct.filter _
  listed := by
    intro container member child listed
    obtain ⟨before, present, _, rfl⟩ := mem_nodes_without.1 member
    obtain ⟨stillListed, kept⟩ := List.mem_filter.1 listed
    obtain ⟨element, held, rfl, parent⟩ := tidy.listed before present child stillListed
    obtain ⟨left, leftMember, sameId, sameParent⟩ :=
      exists_mem_elements_without held (by simpa using kept)
    exact ⟨left, leftMember, sameId, sameParent.trans parent⟩

/-- Erasing what is not there changes nothing. -/
theorem without_eq_self (tidy : graph.Tidy) {doomed : ElementId → Bool}
    (absent : ∀ id ∈ graph.ids, doomed id = false) : graph.without doomed = graph := by
  have nodeKept : ∀ node ∈ graph.nodes, doomed node.id = false := fun node member =>
    absent _ (id_mem_of_node member)
  have flowKept : ∀ flow ∈ graph.flows, doomed flow.id = false := fun flow member =>
    absent _ (id_mem_of_flow member)
  have pruned : ∀ node ∈ graph.nodes, graph.prune doomed node = node := by
    intro node member
    have children : node.children.filter (!doomed ·) = node.children := by
      refine List.filter_eq_self.2 fun child listed => ?_
      obtain ⟨element, held, rfl, _⟩ := tidy.listed node member child listed
      simp [absent _ (mem_ids.2 ⟨element, held, rfl⟩)]
    have keeps : ∀ reference, (!(doomed reference && graph.joins reference node.id)) = true := by
      intro reference
      cases found : graph.flow? reference with
      | none => simp [joins, found]
      | some flow =>
          have kept := flowKept flow (mem_of_flow? found)
          rw [id_of_flow? found] at kept
          simp [kept]
    simp only [prune, children, List.filter_eq_self.2 fun reference _ => keeps reference]
  apply Graph.ext
  · rfl
  · simp only [Graph.without]
    rw [List.filter_eq_self.2 fun node member => by simp [nodeKept node member]]
    exact (List.map_congr_left pruned).trans (List.map_id _)
  · exact List.filter_eq_self.2 fun flow member => by simp [flowKept flow member]

/-- Only its parent lists an element. -/
theorem not_listed (tidy : graph.Tidy) {element : Element} (member : element ∈ graph.elements)
    {node : Node} (present : node ∈ graph.nodes) (other : element.parent ≠ some node.id) :
    element.id ∉ node.children := by
  intro listed
  obtain ⟨held, heldMember, same, parent⟩ := tidy.listed node present element.id listed
  rw [eq_of_id_eq tidy.distinct heldMember member same] at parent
  exact other parent

end Tidy

/-! ## A single flow -/

theorem nodes_updateParent (graph : Graph) (parent : Option ElementId)
    (child : ElementId) :
    (graph.updateParent parent (·.dropChild child)).nodes =
      graph.nodes.map fun node => if parent = some node.id then node.dropChild child else node := by
  cases parent with
  | none => simp [updateParent]
  | some container => simp [updateParent, updateNode, eq_comm]

theorem flows_updateParent (graph : Graph) (parent : Option ElementId)
    (change : Node → Node) : (graph.updateParent parent change).flows = graph.flows := by
  cases parent <;> rfl

theorem root_updateParent (graph : Graph) (parent : Option ElementId)
    (change : Node → Node) : (graph.updateParent parent change).root = graph.root := by
  cases parent <;> rfl

/-- Dropping a child that is not listed changes nothing. -/
theorem dropChild_of_not_mem {node : Node} {child : ElementId}
    (absent : child ∉ node.children) : node.dropChild child = node := by
  have kept : node.children.filter (· ≠ child) = node.children :=
    List.filter_eq_self.2 fun other member => by
      simpa using fun same : other = child => absent (same ▸ member)
  simp only [Node.dropChild, kept]

/-- Unlinking the two ends one after the other unlinks each once, even if they are the same. -/
theorem unlink_ends (node : Node) (source target flow : ElementId) :
    (fun node : Node => if node.id = target then node.unlink flow else node)
        (if node.id = source then node.unlink flow else node) =
      if node.id = source ∨ node.id = target then node.unlink flow else node := by
  by_cases isSource : node.id = source
  · by_cases isTarget : source = target <;>
      simp [Node.unlink, isSource, isTarget, List.filter_filter]
  · simp only [isSource, if_false, false_or]

/-- To erase a single flow is to unlink it at its two ends and to drop it as a child. -/
theorem prune_flow {graph : Graph} {flow : SequenceFlow} (node : Node)
    (found : graph.flow? flow.id = some flow) :
    graph.prune (· = flow.id) node =
      ((if node.id = flow.source ∨ node.id = flow.target then node.unlink flow.id
        else node).dropChild flow.id) := by
  have keeps : ∀ reference,
      (!(decide (reference = flow.id) && graph.joins reference node.id)) =
        !(decide (reference = flow.id) &&
          (decide (flow.source = node.id) || decide (flow.target = node.id))) := by
    intro reference
    by_cases same : reference = flow.id
    · simp [same, joins, found]
    · simp [same]
  simp only [prune, keeps]
  by_cases atEnd : node.id = flow.source ∨ node.id = flow.target
  · rw [if_pos atEnd]
    rcases atEnd with isEnd | isEnd <;> simp [Node.unlink, Node.dropChild, isEnd]
  · rw [if_neg atEnd]
    obtain ⟨notSource, notTarget⟩ := not_or.1 atEnd
    simp [Node.dropChild, Ne.symm notSource, Ne.symm notTarget]

/-- Removing a flow erases it, whether it was there or not. -/
theorem removeFlow_eq {graph : Graph} (tidy : graph.Tidy) {id : ElementId}
    (free : graph.node? id = none) : (graph.removeFlow id).2 = graph.without (· = id) := by
  cases found : graph.flow? id with
  | none =>
      have absent : id ∉ graph.ids := by
        rw [← contains_iff]
        simp [contains, free, found]
      rw [tidy.without_eq_self fun other used => by
        simpa using fun same : other = id => absent (same ▸ used)]
      simp [removeFlow, found]
  | some flow =>
      obtain rfl := id_of_flow? found
      have member := mem_of_flow? found
      simp only [removeFlow, found]
      apply Graph.ext
      · rw [root_updateParent]
        rfl
      · rw [nodes_updateParent]
        simp only [updateNode, without, List.map_map]
        rw [List.filter_eq_self.2 fun node present => by
          simpa using id_ne_of_mem tidy.distinct present member]
        refine List.map_congr_left fun node present => ?_
        rw [prune_flow node found]
        simp only [Function.comp_apply, unlink_ends node flow.source flow.target flow.id]
        -- The unlinked node is the node as far as its id and its children go.
        generalize unlinked : (if node.id = flow.source ∨ node.id = flow.target
          then node.unlink flow.id else node) = left
        have sameId : left.id = node.id := by
          rw [← unlinked]
          split <;> rfl
        have sameChildren : left.children = node.children := by
          rw [← unlinked]
          split <;> rfl
        by_cases isParent : flow.parent = some node.id
        · rw [sameId, if_pos isParent]
        · rw [sameId, if_neg isParent, dropChild_of_not_mem]
          rw [sameChildren]
          exact tidy.not_listed (flow_mem_elements.2 member) present isParent
      · rw [flows_updateParent]
        simp [without]

/-! ## A single node -/

/-- Taking a node out erases it, whether it was there or not. -/
theorem detachNode_eq {graph : Graph} (tidy : graph.Tidy) {id : ElementId}
    (free : graph.flow? id = none) : (graph.detachNode id).2 = graph.without (· = id) := by
  cases found : graph.node? id with
  | none =>
      have absent : id ∉ graph.ids := by
        rw [← contains_iff]
        simp [contains, free, found]
      rw [tidy.without_eq_self fun other used => by
        simpa using fun same : other = id => absent (same ▸ used)]
      simp [detachNode, found]
  | some child =>
      obtain rfl := id_of_node? found
      have member := mem_of_node? found
      simp only [detachNode, found]
      apply Graph.ext
      · rw [root_updateParent]
        rfl
      · rw [nodes_updateParent]
        simp only [without]
        have others : (graph.nodes.filter fun other => !decide (other.id = child.id)) =
            graph.nodes.filter fun other => other.id ≠ child.id := by
          simp
        rw [others]
        refine List.map_congr_left fun node present => ?_
        have keeps : ∀ reference,
            (!(decide (reference = child.id) && graph.joins reference node.id)) = true := by
          intro reference
          by_cases same : reference = child.id
          · simp [same, joins, free]
          · simp [same]
        have pruned : graph.prune (· = child.id) node = node.dropChild child.id := by
          simp only [prune, keeps, Node.dropChild, List.filter_true]
          simp
        rw [pruned]
        by_cases isParent : child.parent = some node.id
        · rw [if_pos isParent]
        · rw [if_neg isParent, dropChild_of_not_mem]
          exact tidy.not_listed (node_mem_elements.2 member) (List.mem_of_mem_filter present)
            isParent
      · rw [flows_updateParent]
        refine (List.filter_eq_self.2 fun flow present => ?_).symm
        simpa using (id_ne_of_mem tidy.distinct member present).symm

/-! ## Several elements -/

/-- Removing flows one after the other erases them all. -/
theorem removeFlows_eq {graph : Graph} (tidy : graph.Tidy) {flows : List ElementId}
    (free : ∀ id ∈ flows, graph.node? id = none) :
    graph.removeFlows flows = graph.without flows.contains := by
  induction flows generalizing graph with
  | nil => exact (tidy.without_eq_self fun _ _ => rfl).symm
  | cons id rest inductionHypothesis =>
      have first := removeFlow_eq tidy (free id List.mem_cons_self)
      have freeLater : ∀ other ∈ rest, (graph.without (· = id)).node? other = none := by
        intro other member
        rw [node?_without, free other (List.mem_cons_of_mem _ member)]
        simp
      have later := inductionHypothesis (tidy.without (· = id)) freeLater
      rw [removeFlows, List.foldl_cons, first]
      refine later.trans ((without_without graph _ _).trans (without_congr graph fun other => ?_))
      simp

/-- Taking nodes out one after the other erases them all. -/
theorem foldl_detachNode_eq {graph : Graph} (tidy : graph.Tidy) {nodes : List ElementId}
    (free : ∀ id ∈ nodes, graph.flow? id = none) :
    nodes.foldl (fun graph id => (graph.detachNode id).2) graph =
      graph.without nodes.contains := by
  induction nodes generalizing graph with
  | nil => exact (tidy.without_eq_self fun _ _ => rfl).symm
  | cons id rest inductionHypothesis =>
      have first := detachNode_eq tidy (free id List.mem_cons_self)
      have freeLater : ∀ other ∈ rest, (graph.without (· = id)).flow? other = none := by
        intro other member
        rw [flow?_without, free other (List.mem_cons_of_mem _ member)]
        simp
      have later := inductionHypothesis (tidy.without (· = id)) freeLater
      rw [List.foldl_cons, first, later]
      refine (without_without graph _ _).trans (without_congr graph fun other => ?_)
      simp

end BusinessProcess.Graph
