import BusinessProcess.Proofs.Graph.Face

/-!
# Processes that differ in one node

Two processes may be the same but for one node, which has the same place in both. The same elements
then lie within that node, so removing it leaves the same process, whatever the node was like.
-/

namespace BusinessProcess.Graph

/-- The processes are the same but for a node, which has the same id and the same parent in both. -/
structure Twins (graph other : Graph) (node twin : Node) : Prop where
  member : node ∈ graph.nodes
  twinMember : twin ∈ other.nodes
  id : twin.id = node.id
  parent : twin.parent = node.parent
  rest : graph.without (· = node.id) = other.without (· = node.id)

namespace Twins

variable {graph other : Graph} {node twin : Node}

theorem symm (twins : Twins graph other node twin) : Twins other graph twin node where
  member := twins.twinMember
  twinMember := twins.member
  id := twins.id.symm
  parent := twins.parent.symm
  rest := by
    rw [twins.id]
    exact twins.rest.symm

/-- The processes have the same ways down. -/
private theorem within (twins : Twins graph other node twin) (wellFormed : graph.WellFormed)
    {outer inner : ElementId} {depth : Nat} (within : graph.Within outer depth inner) :
    other.Within outer depth inner := by
  refine within.mono fun before present => ?_
  by_cases isTwin : before.id = node.id
  · rw [wellFormed.node_eq present twins.member isTwin]
    exact ⟨twin, twins.twinMember, twins.id, twins.parent⟩
  · have left : graph.prune (· = node.id) before ∈ (graph.without (· = node.id)).nodes :=
      mem_nodes_without.2 ⟨before, present, decide_eq_false isTwin, rfl⟩
    rw [twins.rest] at left
    obtain ⟨after, afterMember, _, pruned⟩ := mem_nodes_without.1 left
    exact ⟨after, afterMember, (congrArg Node.id pruned :), (congrArg Node.parent pruned :)⟩

section WellFormed

variable (twins : Twins graph other node twin) (wellFormed : graph.WellFormed)
  (otherWellFormed : other.WellFormed)

include twins wellFormed otherWellFormed

/-- The same nodes lie within the twins. -/
theorem mem_subtree_iff (inner : ElementId) :
    inner ∈ graph.subtree node.id ↔ inner ∈ other.subtree node.id := by
  rw [wellFormed.mem_subtree twins.member, ← twins.id,
    otherWellFormed.mem_subtree twins.twinMember, twins.id]
  exact ⟨fun ⟨depth, within⟩ => ⟨depth, twins.within wellFormed within⟩,
    fun ⟨depth, within⟩ => ⟨depth, twins.symm.within otherWellFormed within⟩⟩

/-- The processes have the same flows. -/
theorem flows_eq : graph.flows = other.flows := by
  have allKept : ∀ {process : Graph} {vertex : Node}, process.WellFormed →
      vertex ∈ process.nodes → (process.without (· = vertex.id)).flows = process.flows := by
    intro process vertex sound present
    refine List.filter_eq_self.2 fun flow flowMember => ?_
    simpa using (id_ne_of_mem sound.distinct present flowMember).symm
  rw [← allKept wellFormed twins.member, twins.rest, ← twins.id,
    allKept otherWellFormed twins.twinMember]

/-- The same elements go with the twins. -/
theorem doomedBy_eq : graph.doomedBy node.id = other.doomedBy node.id := by
  have inside : ∀ id,
      (graph.subtree node.id).contains id = (other.subtree node.id).contains id := by
    intro id
    rw [Bool.eq_iff_iff, List.contains_iff_mem, List.contains_iff_mem]
    exact twins.mem_subtree_iff wellFormed otherWellFormed id
  have touching : graph.touching node.id = other.touching node.id := by
    have touches : touches (graph.subtree node.id) = touches (other.subtree node.id) := by
      funext flow
      simp only [Graph.touches, inside]
    simp only [Graph.touching, touches, twins.flows_eq wellFormed otherWellFormed]
  funext id
  simp only [doomedBy, inside, touching]

/-- Once the twins are erased with all that goes with them, the same is left. -/
theorem without_doomedBy :
    graph.without (graph.doomedBy node.id) = other.without (other.doomedBy node.id) := by
  have twinFirst : ∀ process : Graph, process.without (graph.doomedBy node.id) =
      (process.without (· = node.id)).without (graph.doomedBy node.id) := by
    intro process
    rw [without_without]
    refine without_congr process fun id => ?_
    by_cases isTwin : id = node.id
    · simp [isTwin, wellFormed.doomedBy_self twins.member]
    · simp [isTwin]
  rw [twinFirst graph, twins.rest, ← twinFirst other,
    twins.doomedBy_eq wellFormed otherWellFormed]

/-- Removing the twins leaves the same process. -/
theorem exists_removeNode (notRoot : node.id ≠ graph.root) :
    ∃ removed twinRemoved left, removed.face = node.face ∧ twinRemoved.face = twin.face ∧
      graph.removeNode node.id = .ok (some removed, left) ∧
      other.removeNode node.id = .ok (some twinRemoved, left) := by
  have sameRoot : other.root = graph.root := (congrArg Graph.root twins.rest).symm
  have otherRemoved := otherWellFormed.removeNode_eq twins.twinMember (by
    rw [twins.id, sameRoot]
    exact notRoot)
  rw [twins.id, ← twins.without_doomedBy wellFormed otherWellFormed] at otherRemoved
  have faces : ∀ (process : Graph) (vertex : Node),
      (process.prune (process.doomedBy node.id) vertex).face = vertex.face :=
    fun _ _ => rfl
  exact ⟨_, _, _, faces graph node, faces other twin,
    wellFormed.removeNode_eq twins.member notRoot, otherRemoved⟩

end WellFormed

end Twins

end BusinessProcess.Graph
