import BusinessProcess.Proofs.Graph.Subtree

/-!
# What a removal takes along

A removal by id takes a flow, a node with all that lies in it or joins any of it, or nothing. In all
three cases what goes can be erased, and apart from the element with the given id nothing goes
unless its container or one of its ends does.
-/

namespace BusinessProcess.Graph

/-- What is doomed is severable, and apart from the element with the id nothing is doomed for its
own sake. -/
structure Cascade (graph : Graph) (id : ElementId) (doomed : ElementId → Bool) : Prop extends
    graph.Severable doomed where
  node : ∀ node ∈ graph.nodes, node.id ≠ id → doomed node.id = true →
    ∃ container, node.parent = some container ∧ doomed container = true
  flow : ∀ flow ∈ graph.flows, flow.id ≠ id → doomed flow.id = true →
    doomed flow.source = true ∨ doomed flow.target = true ∨
      ∃ container, flow.parent = some container ∧ doomed container = true

/-- Where nothing has the id, nothing goes. -/
theorem cascade_nothing (graph : Graph) (id : ElementId) : graph.Cascade id fun _ => false where
  root := rfl
  inside _ _ _ _ impossible := nomatch impossible
  joined _ _ impossible := by simp at impossible
  node _ _ _ impossible := nomatch impossible
  flow _ _ _ impossible := nomatch impossible

namespace WellFormed

variable {graph : Graph} (wellFormed : graph.WellFormed)
include wellFormed

/-- A flow takes nothing along. -/
theorem cascade_flow {flow : SequenceFlow} (drawn : flow ∈ graph.flows) :
    graph.Cascade flow.id (· = flow.id) where
  toSeverable := wellFormed.severable_flow drawn
  node _ _ other isFlow := absurd (of_decide_eq_true isFlow) other
  flow _ _ other isFlow := absurd (of_decide_eq_true isFlow) other

/-- What goes with a node lies in it or joins what lies in it. -/
theorem cascade_node {node : Node} (member : node ∈ graph.nodes) (notRoot : node.id ≠ graph.root) :
    graph.Cascade node.id (graph.doomedBy node.id) where
  toSeverable := wellFormed.severable_node member notRoot
  node inner present other doomed := by
    obtain ⟨depth, within⟩ := (wellFormed.mem_subtree member).1
      ((doomedBy_node wellFormed present node.id).1 doomed)
    rcases within.invert with ⟨_, same⟩ | ⟨_, container, held, heldMember, _, same, parent, outside⟩
    · exact absurd same other
    · rw [wellFormed.node_eq heldMember present same] at parent
      obtain ⟨holder, holderMember, rfl, _⟩ :=
        wellFormed.parent_named (node_mem_elements.2 present) parent
      refine ⟨holder.id, parent, (doomedBy_node wellFormed holderMember node.id).2 ?_⟩
      exact (wellFormed.mem_subtree member).2 ⟨_, outside⟩
  flow flow drawn _ doomed := by
    have inSubtree : ∀ id, id ∈ graph.subtree node.id → graph.doomedBy node.id id = true :=
      fun id isInside => by simp [doomedBy, isInside]
    have touched := (wellFormed.doomedBy_iff_touches member drawn).1 doomed
    simp only [touches, Bool.or_eq_true, List.contains_iff_mem, Option.any_eq_true] at touched
    rcases touched with (source | target) | ⟨container, parent, inside⟩
    · exact .inl (inSubtree _ source)
    · exact .inr (.inl (inSubtree _ target))
    · exact .inr (.inr ⟨container, parent, inSubtree _ inside⟩)

/-- Removing a flow erases what goes with it. -/
theorem exists_cascade_of_removeFlow (id : ElementId) : ∃ doomed, graph.Cascade id doomed ∧
    (graph.removeFlow id).2 = graph.without doomed ∧ (graph.without doomed).flow? id = none := by
  rcases wellFormed.removeFlow_cases id with ⟨absent, done⟩ | ⟨flow, drawn, rfl, done⟩
  · refine ⟨_, graph.cascade_nothing id, ?_, ?_⟩
    · rw [done, graph.without_nothing fun _ => rfl]
    · rw [graph.without_nothing fun _ => rfl, absent]
  · refine ⟨_, wellFormed.cascade_flow drawn, by rw [done], ?_⟩
    rw [flow?_without, if_pos (by simp)]

/-- Removing a node erases what goes with it, unless it is refused. -/
theorem exists_cascade_of_removeNode {id : ElementId} {removed : Option Node} {left : Graph}
    (done : graph.removeNode id = .ok (removed, left)) : ∃ doomed, graph.Cascade id doomed ∧
      left = graph.without doomed ∧ (graph.without doomed).node? id = none ∧ id ≠ graph.root := by
  rcases wellFormed.removeNode_cases id with
    ⟨_, refused⟩ | ⟨absent, nothing⟩ | ⟨node, member, rfl, notRoot, erased⟩
  · rw [refused] at done
    cases done
  · rw [nothing] at done
    cases done
    refine ⟨_, graph.cascade_nothing id, ?_, ?_, ?_⟩
    · rw [graph.without_nothing fun _ => rfl]
    · rw [graph.without_nothing fun _ => rfl, absent]
    · rintro rfl
      obtain ⟨root, member, rootId, _⟩ := wellFormed.rooted
      rw [← rootId, node?_of_mem wellFormed.distinct member] at absent
      cases absent
  · rw [erased] at done
    cases done
    refine ⟨_, wellFormed.cascade_node member notRoot, rfl, ?_, notRoot⟩
    rw [node?_without, if_pos (wellFormed.doomedBy_self member)]

end WellFormed

end BusinessProcess.Graph
