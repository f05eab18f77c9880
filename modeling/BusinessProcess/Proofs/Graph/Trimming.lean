import BusinessProcess.Proofs.Graph.Shape
import BusinessProcess.Proofs.Graph.Subtree

/-!
# What several removals leave

When nodes go one after the other, each with all that lies in it, the nodes that are left are those
that lay in none of them at the start. A later removal finds the ways down as they were, because
what is left has kept its place. Nodes that are added on the way, under ids that were cleared before,
are the only others.

A node is followed by its gist. References, children and attributes may change on the way and are no
part of it.
-/

namespace BusinessProcess

/-- The node without its children, its references and its attributes. -/
def Node.gist (node : Node) : Node :=
  { node with children := [], incoming := [], outgoing := [], attributes := .empty }

@[simp] theorem Node.id_gist (node : Node) : node.gist.id = node.id :=
  rfl

theorem Node.gist_linkOutgoing (node : Node) (flow : ElementId) :
    (node.linkOutgoing flow).gist = node.gist := by
  unfold Node.linkOutgoing
  split <;> rfl

theorem Node.gist_linkIncoming (node : Node) (flow : ElementId) :
    (node.linkIncoming flow).gist = node.gist := by
  unfold Node.linkIncoming
  split <;> rfl

namespace Graph

/-- The gists of all nodes. -/
def gists (graph : Graph) : List Node :=
  graph.nodes.map Node.gist

theorem mem_gists {graph : Graph} {gist : Node} :
    gist ∈ graph.gists ↔ ∃ node ∈ graph.nodes, node.gist = gist :=
  List.mem_map

/-- An id names a node exactly if some gist carries it. -/
theorem node?_isSome_iff_gists {graph : Graph} {id : ElementId} :
    (graph.node? id).isSome = true ↔ ∃ gist ∈ graph.gists, gist.id = id := by
  simp [node?_isSome_iff, gists]

/-- A change that keeps the gist of a node keeps all gists. -/
theorem gists_updateNode (graph : Graph) (id : ElementId) {change : Node → Node}
    (keeps : ∀ node, (change node).gist = node.gist) :
    (graph.updateNode id change).gists = graph.gists := by
  simp only [gists, updateNode, List.map_map]
  refine List.map_congr_left fun node _ => ?_
  rw [Function.comp_apply, apply_ite Node.gist, keeps, ite_self]

/-- A new node brings its gist. -/
theorem gists_hold_node (graph : Graph) (parent : ElementId) (node : Node) :
    (graph.hold parent (.node node)).gists = graph.gists ++ [node.gist] := by
  have listed : (graph.updateNode parent (·.addChild node.id)).gists = graph.gists :=
    graph.gists_updateNode parent fun _ => rfl
  rw [← listed]
  exact List.map_append

/-- A new flow brings no gist. -/
theorem gists_hold_flow (graph : Graph) (parent : ElementId) (flow : SequenceFlow) :
    (graph.hold parent (.flow flow)).gists = graph.gists :=
  graph.gists_updateNode parent fun _ => rfl

/-- The gists of what is not doomed are left. -/
theorem mem_gists_without {graph : Graph} {doomed : ElementId → Bool} {gist : Node} :
    gist ∈ (graph.without doomed).gists ↔ gist ∈ graph.gists ∧ doomed gist.id = false := by
  simp only [mem_gists, mem_nodes_without]
  constructor
  · rintro ⟨_, ⟨node, member, kept, rfl⟩, rfl⟩
    exact ⟨⟨node, member, rfl⟩, kept⟩
  · rintro ⟨⟨node, member, rfl⟩, kept⟩
    exact ⟨_, ⟨node, member, kept, rfl⟩, rfl⟩

/-- No flow is found where there are fewer flows than where none was found. -/
theorem flow?_eq_none_of_fewer {graph left : Graph} {id : ElementId}
    (fewer : ∀ flow ∈ left.flows, flow ∈ graph.flows) (absent : graph.flow? id = none) :
    left.flow? id = none := by
  rw [flow?, List.find?_eq_none] at absent ⊢
  exact fun flow drawn => absent flow (fewer flow drawn)

/-! ## What is spared -/

/-- What has the id lies in none of the nodes that go. -/
def Spared (start : Graph) (gone : List ElementId) (id : ElementId) : Prop :=
  ∀ outer ∈ gone, ¬ start.LiesIn outer id

theorem spared_append {start : Graph} {first second : List ElementId} {id : ElementId} :
    start.Spared (first ++ second) id ↔ start.Spared first id ∧ start.Spared second id := by
  simp only [Spared, List.mem_append, or_imp, forall_and]

theorem spared_singleton {start : Graph} {outer id : ElementId} :
    start.Spared [outer] id ↔ ¬ start.LiesIn outer id := by
  simp [Spared]

/-- A node that goes is not spared. -/
theorem Spared.not_mem {start : Graph} {gone : List ElementId} {id : ElementId}
    (spared : start.Spared gone id) : id ∉ gone :=
  fun isGone => spared id isGone (.inl rfl)

/-- What holds a spared node is spared. -/
theorem Spared.container {start : Graph} (wellFormed : start.WellFormed) {gone : List ElementId}
    {container : ElementId} {node : Node} (spared : start.Spared gone node.id)
    (member : node ∈ start.nodes) (parent : node.parent = some container) :
    start.Spared gone container :=
  fun outer isGone liesIn =>
    spared outer isGone (wellFormed.liesIn_of_parent member parent liesIn)

/-- A way down to a node comes from a node. -/
theorem Within.exists_outer {graph : Graph} (wellFormed : graph.WellFormed)
    {outer inner : ElementId} {depth : Nat} (within : graph.Within outer depth inner)
    (present : ∃ node ∈ graph.nodes, node.id = inner) : ∃ node ∈ graph.nodes, node.id = outer := by
  induction within with
  | here => exact present
  | inside _ member parent inductionHypothesis =>
      obtain ⟨holder, isNode, named, _⟩ :=
        wellFormed.parent_named (node_mem_elements.2 member) parent
      exact inductionHypothesis ⟨holder, isNode, named⟩

/-! ## Trimmed processes -/

/-- The process `graph` is what is left of `start` when the nodes `gone` went with all that lay in
them, and fresh nodes may have taken their ids. -/
structure Trimmed (start : Graph) (gone : List ElementId) (fresh : Node → Prop) (graph : Graph) :
    Prop where
  before : start.WellFormed
  wellFormed : graph.WellFormed
  root : graph.root = start.root
  /-- The nodes that are spared are there. -/
  kept : ∀ gist ∈ start.gists, start.Spared gone gist.id → gist ∈ graph.gists
  /-- No other nodes are there, except fresh ones. -/
  origin : ∀ gist ∈ graph.gists,
    (gist ∈ start.gists ∧ start.Spared gone gist.id) ∨ (gist.id ∈ gone ∧ fresh gist)

namespace Trimmed

variable {start graph : Graph} {gone : List ElementId} {fresh : Node → Prop}

theorem initially (wellFormed : start.WellFormed) : Trimmed start [] fresh start where
  before := wellFormed
  wellFormed := wellFormed
  root := rfl
  kept := fun _ member _ => member
  origin := fun _ member => .inl ⟨member, fun _ isGone => nomatch isGone⟩

/-- What keeps the gists leaves a trimmed process. -/
theorem of_gists_eq (trimmed : Trimmed start gone fresh graph) {later : Graph}
    (wellFormed : later.WellFormed) (root : later.root = graph.root)
    (gists : ∀ gist, gist ∈ later.gists ↔ gist ∈ graph.gists) :
    Trimmed start gone fresh later where
  before := trimmed.before
  wellFormed := wellFormed
  root := root.trans trimmed.root
  kept := fun gist member spared => (gists gist).2 (trimmed.kept gist member spared)
  origin := fun gist member => trimmed.origin gist ((gists gist).1 member)

/-- A spared node lies where it lay at the start. -/
theorem within_iff (trimmed : Trimmed start gone fresh graph) {outer inner : ElementId}
    {depth : Nat} (spared : start.Spared gone inner) :
    graph.Within outer depth inner ↔ start.Within outer depth inner := by
  constructor
  · intro within
    induction within with
    | here => exact .here
    | @inside depth container node _ member parent inductionHypothesis =>
        rcases trimmed.origin _ (mem_gists.2 ⟨node, member, rfl⟩) with
          ⟨wasThere, _⟩ | ⟨isGone, _⟩
        · obtain ⟨before, present, same⟩ := mem_gists.1 wasThere
          have sameId : before.id = node.id := (congrArg Node.id same :)
          have sameParent : before.parent = some container :=
            (congrArg Node.parent same :).trans parent
          rw [← sameId] at spared ⊢
          exact .inside (inductionHypothesis
            (spared.container trimmed.before present sameParent)) present sameParent
        · exact absurd isGone spared.not_mem
  · intro within
    induction within with
    | here => exact .here
    | @inside depth container node _ member parent inductionHypothesis =>
        obtain ⟨later, present, same⟩ := mem_gists.1
          (trimmed.kept _ (mem_gists.2 ⟨node, member, rfl⟩) spared)
        have sameId : later.id = node.id := (congrArg Node.id same :)
        have sameParent : later.parent = some container :=
          (congrArg Node.parent same :).trans parent
        have outside := inductionHypothesis (spared.container trimmed.before member parent)
        rw [← sameId]
        exact .inside outside present sameParent

/-- A spared node lies in the nodes it lay in at the start. -/
theorem liesIn_iff (trimmed : Trimmed start gone fresh graph) (outer : ElementId) {gist : Node}
    (member : gist ∈ start.gists) (spared : start.Spared gone gist.id) :
    graph.LiesIn outer gist.id ↔ start.LiesIn outer gist.id := by
  have kept := trimmed.kept gist member spared
  obtain ⟨before, wasThere, rfl⟩ := mem_gists.1 member
  obtain ⟨later, isThere, same⟩ := mem_gists.1 kept
  have sameId : later.id = before.id := (congrArg Node.id same :)
  rw [Node.id_gist, trimmed.before.liesIn_iff wasThere, ← sameId,
    trimmed.wellFormed.liesIn_iff isThere, sameId]
  exact exists_congr fun depth => trimmed.within_iff spared

/-- What leaves out the nodes that lie in one more is trimmed by that one, too. -/
theorem cut (trimmed : Trimmed start gone fresh graph) (id : ElementId) {left : Graph}
    (wellFormed : left.WellFormed) (root : left.root = graph.root)
    (gists : ∀ gist, gist ∈ left.gists ↔ gist ∈ graph.gists ∧ ¬ graph.LiesIn id gist.id) :
    Trimmed start (gone ++ [id]) fresh left where
  before := trimmed.before
  wellFormed := wellFormed
  root := root.trans trimmed.root
  kept := by
    intro gist member spared
    rw [spared_append, spared_singleton] at spared
    rw [gists, trimmed.liesIn_iff id member spared.1]
    exact ⟨trimmed.kept gist member spared.1, spared.2⟩
  origin := by
    intro gist member
    obtain ⟨isThere, outside⟩ := (gists gist).1 member
    rcases trimmed.origin gist isThere with ⟨wasThere, spared⟩ | ⟨isGone, isFresh⟩
    · rw [trimmed.liesIn_iff id wasThere spared] at outside
      exact .inl ⟨wasThere, spared_append.2 ⟨spared, spared_singleton.2 outside⟩⟩
    · exact .inr ⟨List.mem_append_left _ isGone, isFresh⟩

/-- A removed node goes with what lay in it at the start, if it was not the root. -/
theorem removeNode (trimmed : Trimmed start gone fresh graph) (id : ElementId) :
    (id = start.root ∧ graph.removeNode id = .error (.rootRemoval id)) ∨
      ∃ removed left, graph.removeNode id = .ok (removed, left) ∧
        Trimmed start (gone ++ [id]) fresh left ∧ left.node? id = none ∧
        (∀ other, graph.node? other = none → left.node? other = none) ∧
        ∀ flow ∈ left.flows, flow ∈ graph.flows := by
  have wellFormed := trimmed.wellFormed
  rcases wellFormed.removeNode_cases id with ⟨isRoot, refused⟩ | ⟨absent, done⟩ |
    ⟨node, member, rfl, notRoot, done⟩
  · exact .inl ⟨isRoot.trans trimmed.root, refused⟩
  · refine .inr ⟨none, graph, done, trimmed.cut id wellFormed rfl fun gist => ?_, absent,
      fun _ isFree => isFree, fun _ isDrawn => isDrawn⟩
    refine (and_iff_left_of_imp fun isThere => ?_).symm
    obtain ⟨node, member, rfl⟩ := mem_gists.1 isThere
    rw [Node.id_gist, wellFormed.liesIn_iff member]
    rintro ⟨depth, within⟩
    have present := node?_isSome_iff.2 (within.exists_outer wellFormed ⟨node, member, rfl⟩)
    rw [absent] at present
    cases present
  · refine .inr ⟨_, _, done, trimmed.cut node.id
      (wellFormed.without (wellFormed.severable_node member notRoot)) rfl fun gist => ?_, ?_, ?_, ?_⟩
    · rw [mem_gists_without]
      refine and_congr_right fun isThere => ?_
      obtain ⟨inner, present, rfl⟩ := mem_gists.1 isThere
      rw [Node.id_gist, ← wellFormed.doomedBy_iff_liesIn member present, Bool.not_eq_true]
    · rw [node?_without, if_pos (wellFormed.doomedBy_self member)]
    · intro other isFree
      rw [node?_without, isFree, Option.map_none, ite_self]
    · exact fun flow isLeft => (mem_flows_without.1 isLeft).1

/-- A removed flow takes no node along. -/
theorem removeFlow (trimmed : Trimmed start gone fresh graph) (id : ElementId) :
    Trimmed start gone fresh (graph.removeFlow id).2 ∧ (graph.removeFlow id).2.flow? id = none ∧
      ∀ flow ∈ (graph.removeFlow id).2.flows, flow ∈ graph.flows := by
  have wellFormed := trimmed.wellFormed
  rcases wellFormed.removeFlow_cases id with ⟨absent, done⟩ | ⟨flow, member, rfl, done⟩
  · rw [done]
    exact ⟨trimmed, absent, fun _ isDrawn => isDrawn⟩
  · rw [done]
    refine ⟨trimmed.of_gists_eq (wellFormed.without (wellFormed.severable_flow member)) rfl
      fun gist => ?_, ?_, fun _ isLeft => (mem_flows_without.1 isLeft).1⟩
    · rw [mem_gists_without]
      refine and_iff_left_of_imp fun isThere => ?_
      obtain ⟨node, present, rfl⟩ := mem_gists.1 isThere
      have differs : node.id ≠ flow.id := id_ne_of_mem wellFormed.distinct present member
      exact decide_eq_false differs
    · rw [flow?_without, if_pos (by simp)]

/-- An added node is a fresh one under an id that was cleared. -/
theorem addNode (trimmed : Trimmed start gone fresh graph) {parent : ElementId} {node : Node}
    {added : Graph} (empty : node.children = []) (isGone : node.id ∈ gone)
    (isFresh : fresh { node with parent := some parent }.gist)
    (done : graph.addNode parent node = .ok added) : Trimmed start gone fresh added := by
  have wellFormed := trimmed.wellFormed.addNode empty done
  obtain ⟨_, rfl⟩ := addNode_eq_ok done
  refine ⟨trimmed.before, wellFormed, (root_hold _ _ _).trans trimmed.root, ?_, ?_⟩
  · intro gist member spared
    rw [gists_hold_node]
    exact List.mem_append_left _ (trimmed.kept gist member spared)
  · intro gist member
    rw [gists_hold_node, List.mem_append, List.mem_singleton] at member
    rcases member with isThere | rfl
    · exact trimmed.origin gist isThere
    · exact .inr ⟨isGone, isFresh⟩

/-- An added flow brings no node. -/
theorem addFlow (trimmed : Trimmed start gone fresh graph) {parent : ElementId}
    {flow : SequenceFlow} {added : Graph} (done : graph.addFlow parent flow = .ok added) :
    Trimmed start gone fresh added := by
  refine trimmed.of_gists_eq (trimmed.wellFormed.addFlow done) (root_addFlow done) fun gist => ?_
  obtain ⟨drawn, isDrawn, rfl⟩ := addFlow_eq_ok done
  obtain ⟨_, _, rfl⟩ := addFlowUnlinked_eq_ok isDrawn
  rw [gists_updateNode _ _ fun node => node.gist_linkIncoming flow.id,
    gists_updateNode _ _ fun node => node.gist_linkOutgoing flow.id, gists_hold_flow]

/-- What is said in the attributes of a node leaves the process trimmed. -/
theorem describe (trimmed : Trimmed start gone fresh graph) (id : ElementId)
    (change : Attributes → Attributes) :
    Trimmed start gone fresh (graph.updateNode id fun node =>
      { node with attributes := change node.attributes }) := by
  refine trimmed.of_gists_eq (trimmed.wellFormed.of_sameShape
    (sameShape_updateNode graph id fun _ => rfl)) rfl fun gist => ?_
  rw [gists_updateNode _ _ fun _ => by rfl]

/-- A spared node is found as it was, apart from its attributes and what it lists. -/
theorem exists_spared (trimmed : Trimmed start gone fresh graph) {node : Node}
    (member : node ∈ start.nodes) (spared : start.Spared gone node.id) :
    ∃ later, graph.node? node.id = some later ∧ later.gist = node.gist := by
  obtain ⟨later, isThere, same⟩ :=
    mem_gists.1 (trimmed.kept node.gist (mem_gists.2 ⟨node, member, rfl⟩) spared)
  have sameId : later.id = node.id := (congrArg Node.id same :)
  exact ⟨later, sameId ▸ node?_of_mem trimmed.wellFormed.distinct isThere, same⟩

/-- What is found under the id of a node that is not spared is a fresh node. -/
theorem fresh_of_not_spared (trimmed : Trimmed start gone fresh graph) {id : ElementId}
    {later : Node} (lost : ¬ start.Spared gone id) (found : graph.node? id = some later) :
    id ∈ gone ∧ fresh later.gist := by
  obtain rfl := id_of_node? found
  rcases trimmed.origin later.gist (mem_gists.2 ⟨later, mem_of_node? found, rfl⟩) with
    ⟨_, spared⟩ | isFresh
  · exact absurd spared lost
  · exact isFresh

end Trimmed

end Graph

end BusinessProcess
