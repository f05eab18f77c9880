import BusinessProcess.Proofs.Graph.Erasure

/-!
# What lies in a node

A removal finds what it takes along on the way down, through the children of the removed node. Read
the other way, on the way up from each element, the same is said by its ancestors alone. `Severs`
describes a removal in these terms, and `severs_of_removeNode` says that the removal meets the
description.
-/

namespace BusinessProcess.Graph

/-- What has the id `inner` is the node `outer`, or it has that node among its ancestors. -/
def LiesIn (graph : Graph) (outer inner : ElementId) : Prop :=
  inner = outer ∨ ∃ container ∈ graph.ancestors inner, container.id = outer

instance (graph : Graph) (outer inner : ElementId) : Decidable (graph.LiesIn outer inner) :=
  inferInstanceAs (Decidable (_ ∨ _))

/-- The ids of the nodes that are left when a node goes with all that lies in it. -/
def survivors (graph : Graph) (gone : ElementId) : List ElementId :=
  (graph.nodes.map Node.id).filter fun id => ¬ graph.LiesIn gone id

theorem mem_survivors {graph : Graph} {gone id : ElementId} : id ∈ graph.survivors gone ↔
    (∃ node ∈ graph.nodes, node.id = id) ∧ ¬ graph.LiesIn gone id := by
  simp [survivors]

/-- A drawn flow with the id `reference` that starts or ends at the node is not left. -/
def Lost (graph left : Graph) (node reference : ElementId) : Prop :=
  ∃ flow ∈ graph.flows, flow.id = reference ∧ (flow.source = node ∨ flow.target = node) ∧
    flow ∉ left.flows

instance (graph left : Graph) (node reference : ElementId) :
    Decidable (graph.Lost left node reference) :=
  inferInstanceAs (Decidable (∃ flow ∈ graph.flows, _))

/-- The node without the children that are not left and without the references to the flows that
it lost. -/
def bereave (graph left : Graph) (node : Node) : Node :=
  { node with
    children := node.children.filter (· ∈ left.ids)
    incoming := node.incoming.filter (¬ graph.Lost left node.id ·)
    outgoing := node.outgoing.filter (¬ graph.Lost left node.id ·) }

/-- The process `left` is what is left of `graph` when `node` goes with all that lies in it, and
`returned` is what is given back for the node. -/
structure Severs (graph : Graph) (node returned : Node) (left : Graph) : Prop where
  root : left.root = graph.root
  /-- The nodes that do not lie in the removed one stay, in their order. -/
  nodes : left.nodes =
    (graph.nodes.filter fun other => ¬ graph.LiesIn node.id other.id).map (graph.bereave left)
  /-- The flows between and inside such nodes stay, in their order. -/
  flows : left.flows = graph.flows.filter fun flow =>
    flow.source ∈ graph.survivors node.id ∧ flow.target ∈ graph.survivors node.id ∧
      ∃ container ∈ graph.survivors node.id, flow.parent = some container
  /-- The node comes back as it was, without what went with it. -/
  given : returned = graph.bereave left node
  childless : returned.children = []
  unlinked : ∀ flow ∈ graph.flows, flow.source = node.id ∨ flow.target = node.id →
    flow.id ∉ returned.incoming ∧ flow.id ∉ returned.outgoing

/-! ## The way up and the way down -/

/-- What is met on the way up from a node holds the node, however deep. -/
theorem Climb.exists_within {graph : Graph} {parent : Option ElementId} {containers : List Node}
    (climb : graph.Climb parent containers) {id : ElementId} (named : parent = some id) :
    ∀ container ∈ containers, ∃ depth, graph.Within container.id depth id := by
  induction climb generalizing id with
  | top => cases named
  | @up outer holder above found _ inductionHypothesis =>
      cases named
      obtain rfl := id_of_node? found
      intro container met
      rcases List.mem_cons.1 met with rfl | isAbove
      · exact ⟨0, .here⟩
      · cases parent : holder.parent with
        | none =>
            rename_i rest
            rw [parent] at rest
            cases rest
            cases isAbove
        | some further =>
            obtain ⟨depth, within⟩ := inductionHypothesis parent container isAbove
            exact ⟨depth + 1, .inside within (mem_of_node? found) parent⟩

/-- What holds a node, however deep, is met on the way up from it. -/
theorem Within.exists_climbed {graph : Graph} (distinct : graph.ids.Nodup)
    {outer inner : ElementId} {depth : Nat} (within : graph.Within outer depth inner)
    {containers : List Node} (climb : graph.Climb (some inner) containers) :
    ∃ container ∈ containers, container.id = outer := by
  induction within generalizing containers with
  | here =>
      cases climb with
      | up found _ => exact ⟨_, List.mem_cons_self, id_of_node? found⟩
  | inside _ member parent inductionHypothesis =>
      cases climb with
      | up found rest =>
          rw [node?_of_mem distinct member] at found
          obtain rfl := Option.some.inj found
          rw [parent] at rest
          obtain ⟨container, met, same⟩ := inductionHypothesis rest
          exact ⟨container, List.mem_cons_of_mem _ met, same⟩

namespace WellFormed

variable {graph : Graph} (wellFormed : graph.WellFormed)
include wellFormed

/-- A node lies in another one exactly if there is a way down to it. -/
theorem liesIn_iff {outer : ElementId} {node : Node} (member : node ∈ graph.nodes) :
    graph.LiesIn outer node.id ↔ ∃ depth, graph.Within outer depth node.id := by
  have climb : graph.Climb node.parent (graph.ancestors node.id) :=
    (wellFormed.surrounds_ancestors (node_mem_elements.2 member)).complete
  unfold LiesIn
  generalize graph.ancestors node.id = containers at climb ⊢
  constructor
  · rintro (same | ⟨container, met, rfl⟩)
    · exact ⟨0, same ▸ .here⟩
    · cases parent : node.parent with
      | none =>
          rw [parent] at climb
          cases climb
          cases met
      | some holder =>
          obtain ⟨depth, within⟩ := climb.exists_within parent container met
          exact ⟨depth + 1, .inside within member parent⟩
  · rintro ⟨depth, within⟩
    rcases within.invert with ⟨_, same⟩ | ⟨_, holder, held, heldMember, _, same, parent, outside⟩
    · exact .inl same
    · obtain rfl := wellFormed.node_eq heldMember member same
      rw [parent] at climb
      exact .inr (outside.exists_climbed wellFormed.distinct climb)

/-- What lies in a node lies in whatever that node lies in. -/
theorem liesIn_of_parent {outer container : ElementId} {node : Node} (member : node ∈ graph.nodes)
    (parent : node.parent = some container) (liesIn : graph.LiesIn outer container) :
    graph.LiesIn outer node.id := by
  obtain ⟨holder, present, rfl, _⟩ := wellFormed.parent_named (node_mem_elements.2 member) parent
  obtain ⟨depth, within⟩ := (wellFormed.liesIn_iff present).1 liesIn
  exact (wellFormed.liesIn_iff member).2 ⟨depth + 1, .inside within member parent⟩

/-! ## Removals -/

/-- What is left of a node is the node without the children and the flows that it lost. -/
theorem prune_eq_bereave (doomed : ElementId → Bool) {node : Node} (member : node ∈ graph.nodes) :
    graph.prune doomed node = graph.bereave (graph.without doomed) node := by
  have children : node.children.filter (!doomed ·) =
      node.children.filter (· ∈ (graph.without doomed).ids) := by
    refine List.filter_congr fun child listed => ?_
    obtain ⟨element, held, rfl, _⟩ := wellFormed.listed node member child listed
    have used : element.id ∈ graph.ids := mem_ids.2 ⟨element, held, rfl⟩
    rw [ids_without, Bool.eq_iff_iff, decide_eq_true_iff, List.mem_filter, and_iff_right used]
  have references : ∀ reference,
      (!(doomed reference && graph.joins reference node.id)) =
        decide (¬ graph.Lost (graph.without doomed) node.id reference) := by
    intro reference
    rw [decide_not]
    refine congrArg _ (Bool.eq_iff_iff.2 ?_)
    rw [decide_eq_true_iff, Bool.and_eq_true]
    constructor
    · rintro ⟨isDoomed, joined⟩
      rw [joins, Option.any_eq_true] at joined
      obtain ⟨flow, found, ends⟩ := joined
      obtain rfl := id_of_flow? found
      refine ⟨flow, mem_of_flow? found, rfl, by simpa using ends, fun kept => ?_⟩
      rw [(mem_flows_without.1 kept).2] at isDoomed
      cases isDoomed
    · rintro ⟨flow, drawn, rfl, ends, gone⟩
      rw [mem_flows_without, and_iff_right drawn, Bool.not_eq_false] at gone
      refine ⟨gone, ?_⟩
      rw [joins, flow?_of_mem wellFormed.distinct drawn]
      simpa using ends
  simp only [prune, bereave, children, references]

variable {node : Node} (member : node ∈ graph.nodes)
include member

/-- The nodes that go with a removed one are those that lie in it. -/
theorem doomedBy_iff_liesIn {other : Node} (present : other ∈ graph.nodes) :
    graph.doomedBy node.id other.id = true ↔ graph.LiesIn node.id other.id := by
  rw [doomedBy_node wellFormed present, wellFormed.mem_subtree member,
    wellFormed.liesIn_iff present]

/-- A node outlives the removal of another one exactly if it is not in its subtree. -/
theorem mem_survivors_iff {id : ElementId} (used : ∃ other ∈ graph.nodes, other.id = id) :
    id ∈ graph.survivors node.id ↔ id ∉ graph.subtree node.id := by
  obtain ⟨other, present, rfl⟩ := used
  rw [mem_survivors, and_iff_right ⟨other, present, rfl⟩,
    ← wellFormed.doomedBy_iff_liesIn member present, doomedBy_node wellFormed present]

/-- The flows that go with a removed node are those that touch its subtree. -/
theorem doomedBy_iff_touches {flow : SequenceFlow} (drawn : flow ∈ graph.flows) :
    graph.doomedBy node.id flow.id = true ↔ touches (graph.subtree node.id) flow = true := by
  refine ⟨fun doomed => ?_, doomedBy_flow drawn⟩
  rw [doomedBy, Bool.or_eq_true, List.contains_iff_mem, List.contains_iff_mem] at doomed
  rcases doomed with inSubtree | touched
  · -- The ids of a subtree are those of nodes.
    obtain ⟨depth, within⟩ := (wellFormed.mem_subtree member).1 inSubtree
    rcases within.invert with ⟨_, same⟩ | ⟨_, _, inner, innerMember, _, same, _⟩
    · exact absurd same.symm (id_ne_of_mem wellFormed.distinct member drawn)
    · exact absurd same (id_ne_of_mem wellFormed.distinct innerMember drawn)
  · obtain ⟨other, isTouching, same⟩ := List.mem_map.1 touched
    obtain ⟨otherDrawn, otherTouches⟩ := List.mem_filter.1 isTouching
    have found := flow?_of_mem wellFormed.distinct otherDrawn
    rw [same, flow?_of_mem wellFormed.distinct drawn] at found
    rw [Option.some.inj found]
    exact otherTouches

/-- A flow stays exactly if both its ends and what holds it stay. -/
theorem doomedBy_flow_iff {flow : SequenceFlow} (drawn : flow ∈ graph.flows) :
    graph.doomedBy node.id flow.id = false ↔
      flow.source ∈ graph.survivors node.id ∧ flow.target ∈ graph.survivors node.id ∧
        ∃ container ∈ graph.survivors node.id, flow.parent = some container := by
  have isElement := flow_mem_elements.2 drawn
  obtain ⟨container, present, parent, _⟩ :=
    wellFormed.held (.flow flow) isElement (wellFormed.flow_id_ne_root drawn)
  replace parent : flow.parent = some container.id := parent
  obtain ⟨source, target⟩ := wellFormed.joined flow drawn
  rw [← Bool.not_eq_true, wellFormed.doomedBy_iff_touches member drawn]
  simp only [touches, parent, Option.any_some, Bool.or_eq_true, List.contains_iff_mem, not_or,
    Option.some.injEq, exists_eq_right', wellFormed.mem_survivors_iff member source,
    wellFormed.mem_survivors_iff member target,
    wellFormed.mem_survivors_iff member ⟨container, present, rfl⟩, and_assoc]

/-- Removing a node other than the root takes along what lies in it and nothing else. -/
theorem severs_of_removeNode (other : node.id ≠ graph.root) :
    ∃ returned left, graph.removeNode node.id = .ok (some returned, left) ∧
      graph.Severs node returned left := by
  have same := wellFormed.prune_eq_bereave (graph.doomedBy node.id) member
  refine ⟨_, _, wellFormed.removeNode_eq member other, rfl, ?_, ?_, same,
    wellFormed.children_removed member other, fun flow drawn ends => ?_⟩
  · have kept : (graph.nodes.filter fun inner => !graph.doomedBy node.id inner.id) =
        graph.nodes.filter fun inner => ¬ graph.LiesIn node.id inner.id := by
      refine List.filter_congr fun inner present => ?_
      rw [decide_not]
      refine congrArg _ (Bool.eq_iff_iff.2 ?_)
      rw [decide_eq_true_iff]
      exact wellFormed.doomedBy_iff_liesIn member present
    rw [← kept]
    exact List.map_congr_left fun inner isKept =>
      wellFormed.prune_eq_bereave _ (List.mem_of_mem_filter isKept)
  · refine List.filter_congr fun flow drawn => ?_
    rw [Bool.eq_iff_iff, decide_eq_true_iff, Bool.not_eq_true']
    exact wellFormed.doomedBy_flow_iff member drawn
  · have lost : graph.Lost (graph.without (graph.doomedBy node.id)) node.id flow.id := by
      have doomed := (wellFormed.severable_node member other).joined flow drawn (by
        rcases ends with isSource | isTarget
        · exact .inl (isSource ▸ wellFormed.doomedBy_self member)
        · exact .inr (isTarget ▸ wellFormed.doomedBy_self member))
      refine ⟨flow, drawn, rfl, ends, fun kept => ?_⟩
      rw [(mem_flows_without.1 kept).2] at doomed
      cases doomed
    rw [same]
    simp [bereave, lost]

end WellFormed

end BusinessProcess.Graph
