import BusinessProcess.Proofs.History.Integrity

/-!
# Flows added in any order

Whether a flow is admitted depends on its id, on the kind of its container and on whether its ends
are there, and no other flow changes any of this unless it has the same id. Flows with different ids
are therefore admitted or refused alike in whatever order they are added, and the process has the
same flows in the end, each listed when it was added.
-/

namespace BusinessProcess

/-- A flow that is added to a container, with the references to it or without. -/
structure Drawing where
  parent : ElementId
  flow : SequenceFlow
  isLinked : Bool
deriving DecidableEq

namespace Drawing

/-- The edit that adds the flow. -/
def edit (drawing : Drawing) : Edit :=
  if drawing.isLinked then .addFlow drawing.parent drawing.flow
  else .addFlowUnlinked drawing.parent drawing.flow

/-- The flow in its container. -/
def placed (drawing : Drawing) : SequenceFlow :=
  { drawing.flow with parent := some drawing.parent }

/-- The process with the flow in its container. -/
def onto (drawing : Drawing) (graph : Graph) : Graph :=
  let held := graph.hold drawing.parent (.flow drawing.placed)
  if drawing.isLinked then
    (held.updateNode drawing.flow.source (·.linkOutgoing drawing.flow.id)).updateNode
      drawing.flow.target (·.linkIncoming drawing.flow.id)
  else held

end Drawing

namespace Graph

variable {graph : Graph} {drawing other : Drawing} {id : ElementId}

/-- The kind of the node with the given id. -/
def kind? (graph : Graph) (id : ElementId) : Option NodeKind :=
  (graph.node? id).map Node.kind

/-- Whether a flow is added when this is asked for: its id is free, its parent is a container, and
its ends are there. -/
def admits (graph : Graph) (drawing : Drawing) : Bool :=
  !graph.contains drawing.flow.id && (graph.kind? drawing.parent).any NodeKind.isContainer &&
    (graph.kind? drawing.flow.source).isSome && (graph.kind? drawing.flow.target).isSome

/-- A change that keeps ids and kinds is not seen in the kinds. -/
theorem kind?_updateNode {change : Node → Node} (changed : ElementId)
    (keepsId : ∀ node, (change node).id = node.id)
    (keepsKind : ∀ node, (change node).kind = node.kind) :
    (graph.updateNode changed change).kind? id = graph.kind? id := by
  rw [kind?, node?_updateNode graph changed id keepsId, kind?]
  split
  next => rw [Option.map_map, show Node.kind ∘ change = Node.kind from funext keepsKind]
  next => rfl

/-- Drawing a flow changes no kinds. -/
theorem kind?_onto : (drawing.onto graph).kind? id = graph.kind? id := by
  have held : (graph.hold drawing.parent (.flow drawing.placed)).kind? id = graph.kind? id :=
    kind?_updateNode drawing.parent (fun _ => rfl) fun _ => rfl
  unfold Drawing.onto
  split
  next =>
    rw [kind?_updateNode _ (fun node => node.id_linkIncoming _)
      fun node => (Node.alike_of_shape (node.shape_linkIncoming _)).kind, kind?_updateNode _
      (fun node => node.id_linkOutgoing _)
      fun node => (Node.alike_of_shape (node.shape_linkOutgoing _)).kind]
    exact held
  next => exact held

/-- A drawn flow comes last. -/
theorem flows_onto : (drawing.onto graph).flows = graph.flows ++ [drawing.placed] := by
  unfold Drawing.onto
  split <;> rfl

/-- Drawing a flow takes up its id and no other one. -/
theorem contains_onto (differs : id ≠ drawing.flow.id) :
    (drawing.onto graph).contains id = graph.contains id := by
  have nodes : ((drawing.onto graph).node? id).isSome = (graph.node? id).isSome := by
    simpa [kind?] using congrArg Option.isSome (kind?_onto : _ = graph.kind? id)
  have flows : ((drawing.onto graph).flow? id).isSome = (graph.flow? id).isSome := by
    have notPlaced : drawing.placed.id ≠ id := differs.symm
    simp [flow?, flows_onto, List.find?_append, notPlaced]
  rw [contains, contains, nodes, flows]

/-- A flow with another id is admitted after a drawing exactly if it was before. -/
theorem admits_onto (differs : other.flow.id ≠ drawing.flow.id) :
    (drawing.onto graph).admits other = graph.admits other := by
  simp only [admits, kind?_onto, contains_onto differs]

/-- A flow that is added without references is held by its container, if it is admitted. -/
theorem toOption_addFlowUnlinked :
    (graph.addFlowUnlinked drawing.parent drawing.flow).toOption =
      if graph.admits drawing then some (graph.hold drawing.parent (.flow drawing.placed))
      else none := by
  unfold addFlowUnlinked checkAddition admits kind?
  cases graph.contains drawing.flow.id
  case true => rfl
  case false =>
    cases graph.node? drawing.parent with
    | none => rfl
    | some container =>
        cases isContainer : container.kind.isContainer <;>
          cases graph.node? drawing.flow.source <;> cases graph.node? drawing.flow.target <;>
            simp [isContainer, Except.toOption, hold, Drawing.placed, Element.id]

/-- A flow that is asked for is drawn, if it is admitted. -/
theorem run_edit : drawing.edit.run graph =
    if graph.admits drawing then drawing.onto graph else graph := by
  have unlinked : (graph.addFlowUnlinked drawing.parent drawing.flow).toOption = _ :=
    toOption_addFlowUnlinked
  unfold Drawing.edit Drawing.onto
  cases drawing.isLinked with
  | false =>
      simp only [Bool.false_eq_true, if_false, Edit.run, unlinked]
      split <;> rfl
  | true =>
      simp only [if_true, Edit.run, addFlow]
      cases done : graph.addFlowUnlinked drawing.parent drawing.flow with
      | error error =>
          rw [done] at unlinked
          split at unlinked
          next => cases unlinked
          next refused => rw [if_neg refused]; rfl
      | ok drawn =>
          rw [done] at unlinked
          split at unlinked
          next admitted =>
            cases unlinked
            rw [if_pos admitted]
            rfl
          next => cases unlinked

/-- Flows with different ids that are asked for one after the other are drawn if they are admitted
beforehand, in this order. -/
theorem flows_run_edits {drawings : List Drawing}
    (different : (drawings.map fun drawing => drawing.flow.id).Nodup) :
    ((drawings.map Drawing.edit).foldl Edit.run graph).flows =
      graph.flows ++ (drawings.filter graph.admits).map Drawing.placed := by
  induction drawings generalizing graph with
  | nil => simp
  | cons drawing rest inductionHypothesis =>
      obtain ⟨fresh, differentRest⟩ := List.nodup_cons.1 different
      rw [List.map_cons, List.foldl_cons, inductionHypothesis differentRest, run_edit]
      by_cases admitted : graph.admits drawing = true
      · have later : rest.filter (drawing.onto graph).admits = rest.filter graph.admits := by
          apply List.filter_congr
          intro other isLater
          apply admits_onto
          exact fun same => fresh (List.mem_map.2 ⟨other, isLater, same⟩)
        rw [if_pos admitted, later, flows_onto, List.filter_cons_of_pos admitted, List.map_cons,
          List.append_assoc, List.singleton_append]
      · rw [if_neg admitted, List.filter_cons_of_neg admitted]

/-- Flows that are asked for keep a process well formed and change no kinds. -/
theorem WellFormed.run_edits (wellFormed : graph.WellFormed) (drawings : List Drawing) :
    ((drawings.map Drawing.edit).foldl Edit.run graph).WellFormed ∧
      ∀ id, ((drawings.map Drawing.edit).foldl Edit.run graph).kind? id = graph.kind? id := by
  induction drawings generalizing graph with
  | nil => exact ⟨wellFormed, fun _ => rfl⟩
  | cons drawing rest inductionHypothesis =>
      have noNode : ∀ parent node, drawing.edit = .addNode parent node → node.children = [] := by
        intro parent node isNode
        unfold Drawing.edit at isNode
        split at isNode <;> cases isNode
      obtain ⟨drawn, _⟩ := wellFormed.run drawing.edit noNode
      obtain ⟨later, kinds⟩ := inductionHypothesis drawn
      refine ⟨later, fun id => (kinds id).trans ?_⟩
      rw [run_edit]
      split
      next => exact kind?_onto
      next => rfl

/-- Each node is still there after flows were asked for, under an id that no flow has. -/
theorem WellFormed.no_flow_of_node (wellFormed : graph.WellFormed) (drawings : List Drawing)
    {node : Node} (present : node ∈ graph.nodes) :
    ∀ flow ∈ ((drawings.map Drawing.edit).foldl Edit.run graph).flows, flow.id ≠ node.id := by
  obtain ⟨later, kinds⟩ := wellFormed.run_edits drawings
  have found := kinds node.id
  rw [kind?, kind?, node?_of_mem wellFormed.distinct present] at found
  obtain ⟨still, isStill, _⟩ := Option.map_eq_some_iff.1 found
  intro flow drawn same
  exact id_ne_of_mem later.distinct (mem_of_node? isStill) drawn
    ((id_of_node? isStill).trans same.symm)

/-- In whatever order flows with different ids are asked for, the same flows are drawn. -/
theorem flows_run_edits_perm {drawings others : List Drawing} (perm : drawings.Perm others)
    (different : (drawings.map fun drawing => drawing.flow.id).Nodup) :
    ((drawings.map Drawing.edit).foldl Edit.run graph).flows.Perm
      ((others.map Drawing.edit).foldl Edit.run graph).flows := by
  rw [flows_run_edits different, flows_run_edits ((perm.map _).nodup_iff.1 different)]
  exact ((perm.filter _).map _).append_left graph.flows

end Graph

end BusinessProcess
