import BusinessProcess.Proofs.Graph.Walk
import BusinessProcess.Proofs.TimeLimit.Layer

/-!
# Looking at the core

Whatever is looked up in the core of a process is found in the process and shown without time
limits: elements, what lies inside and around them, the flows at a node, and the walk. What the walk
of the process meets in the layer of time limits has nothing inside, so it is simply left out.
-/

namespace BusinessProcess

namespace Graph

variable {reserved : ElementId → Bool} {graph : Graph}

/-- What the core shows of an element, if it shows it at all. -/
def coreElement? (reserved : ElementId → Bool) (graph : Graph) (element : Element) :
    Option Element :=
  if reserved element.id then none else some (element.mapNode (graph.coreNode reserved))

@[simp] theorem id_mapNode_coreNode (element : Element) :
    (element.mapNode (graph.coreNode reserved)).id = element.id := by
  cases element with
  | node node => exact id_coreNode node
  | flow flow => rfl

theorem coreElement?_of_reserved {element : Element} (isReserved : reserved element.id = true) :
    graph.coreElement? reserved element = none :=
  if_pos isReserved

theorem coreElement?_of_unreserved {element : Element} (unreserved : reserved element.id = false) :
    graph.coreElement? reserved element = some (element.mapNode (graph.coreNode reserved)) :=
  if_neg (Bool.eq_false_iff.1 unreserved)

@[simp] theorem children_coreNode (node : Node) :
    (graph.coreNode reserved node).children = node.children.filter (!reserved ·) :=
  Node.children_forgetLimits _

@[simp] theorem name_coreNode (node : Node) : (graph.coreNode reserved node).name = node.name :=
  Node.name_forgetLimits _

@[simp] theorem definitions_coreNode (node : Node) :
    (graph.coreNode reserved node).definitions = node.definitions :=
  Node.definitions_forgetLimits _

/-- Attributes that are no time limits are shown in the core. -/
theorem get?_attributes_coreNode (node : Node) {key : String}
    (other : TimeLimit.isLimitKey key = false) :
    (graph.coreNode reserved node).attributes.get? key = node.attributes.get? key :=
  Node.get?_forgetLimits _ other

/-! ## Look-ups -/

theorem node?_core (id : ElementId) : (graph.core reserved).node? id =
    if reserved id then none else (graph.node? id).map (graph.coreNode reserved) := by
  refine (node?_map (graph.without reserved) Node.id_forgetLimits id).trans ?_
  rw [node?_without]
  split
  next => rfl
  next => rw [Option.map_map]; rfl

theorem flow?_core (id : ElementId) :
    (graph.core reserved).flow? id = if reserved id then none else graph.flow? id :=
  flow?_without graph reserved id

theorem flow?_core_of_unreserved {id : ElementId} (unreserved : reserved id = false) :
    (graph.core reserved).flow? id = graph.flow? id := by
  rw [flow?_core, unreserved]
  rfl

/-- References stand for drawn flows in the core if they do so in the process. -/
theorem any_flow?_core {references : List ElementId}
    (known : ∀ reference ∈ references, reserved reference = false) :
    (references.any fun reference => ((graph.core reserved).flow? reference).isSome) =
      references.any fun reference => (graph.flow? reference).isSome := by
  rw [Bool.eq_iff_iff, List.any_eq_true, List.any_eq_true]
  refine exists_congr fun reference => and_congr_right fun referred => ?_
  rw [flow?_core_of_unreserved (known reference referred)]

theorem element?_core (id : ElementId) :
    (graph.core reserved).element? id = (graph.element? id).bind (graph.coreElement? reserved) := by
  rw [element?, node?_core, flow?_core, element?]
  cases isNode : graph.node? id with
  | some node =>
      obtain rfl := id_of_node? isNode
      cases isReserved : reserved node.id with
      | true => simp [coreElement?, Element.id, isReserved]
      | false => simp [coreElement?, Element.id, isReserved, Element.mapNode]
  | none =>
      cases isFlow : graph.flow? id with
      | none => simp
      | some flow =>
          obtain rfl := id_of_flow? isFlow
          cases isReserved : reserved flow.id with
          | true => simp [coreElement?, Element.id, isReserved]
          | false => simp [coreElement?, Element.id, isReserved, Element.mapNode]

/-- The children that the core shows are those that are not reserved, in their order. -/
theorem children_core {id : ElementId} (unreserved : reserved id = false) :
    (graph.core reserved).children id =
      (graph.children id).filterMap (graph.coreElement? reserved) := by
  rw [children, node?_core, unreserved, children]
  cases graph.node? id with
  | none => rfl
  | some node =>
      simp only [Bool.false_eq_true, if_false, Option.map_some, children_coreNode,
        List.filterMap_filter, List.filterMap_filterMap]
      refine List.filterMap_congr fun child _ => ?_
      rw [element?_core]
      cases isReserved : reserved child with
      | false => rfl
      | true =>
          cases found : graph.element? child with
          | none => rfl
          | some element =>
              have gone : graph.coreElement? reserved element = none :=
                coreElement?_of_reserved ((mem_of_element? found).2 ▸ isReserved)
              simp [gone]

theorem childNodes_core {id : ElementId} (unreserved : reserved id = false) :
    (graph.core reserved).childNodes id =
      ((graph.childNodes id).filter (!reserved ·.id)).map (graph.coreNode reserved) := by
  rw [childNodes, children_core unreserved, childNodes, List.filterMap_filterMap,
    List.filter_filterMap, List.map_filterMap]
  refine List.filterMap_congr fun element _ => ?_
  cases element with
  | flow flow =>
      cases isReserved : reserved flow.id <;>
        simp [coreElement?, Element.id, isReserved, Element.mapNode]
  | node node =>
      cases isReserved : reserved node.id <;>
        simp [coreElement?, Element.id, isReserved, Element.mapNode, Option.filter]

theorem contents_core {element : Element} (unreserved : reserved element.id = false) :
    (graph.core reserved).contents (element.mapNode (graph.coreNode reserved)) =
      (graph.contents element).filterMap (graph.coreElement? reserved) := by
  cases element with
  | flow flow => rfl
  | node node =>
      simp only [Element.mapNode, contents, kind_coreNode, id_coreNode]
      split
      next => exact children_core unreserved
      next => rfl

end Graph

namespace TimeLimit

open BusinessProcess.Graph

namespace Layered

variable {reserved : ElementId → Bool} {graph : Graph} (layered : Layered reserved graph)
include layered

/-! ## The core as a process -/

/-- The layer of time limits can be erased as a whole. -/
theorem severable : graph.Severable reserved where
  root := layered.root
  inside := by
    intro element member container held isReserved
    obtain ⟨outer, present, rfl, isContainer⟩ := layered.wellFormed.parent_named member held
    rw [layered.container_unreserved present isContainer] at isReserved
    cases isReserved
  joined := by
    intro flow member atEnd
    by_contra unreserved
    obtain ⟨source, target⟩ := layered.loose flow member (Bool.eq_false_iff.2 unreserved)
    rw [source, target] at atEnd
    simp at atEnd

theorem wellFormed_core : (graph.core reserved).WellFormed := by
  refine (layered.wellFormed.without layered.severable).of_sameShape ⟨rfl, ?_, rfl⟩
  show ((graph.without reserved).nodes.map Node.forgetLimits).map Node.shape = _
  rw [List.map_map]
  refine List.map_congr_left fun node _ => ?_
  simp only [Function.comp_apply, Node.forgetLimits]
  split <;> rfl

/-! ## The walk -/

/-- An element of the layer has nothing inside. -/
theorem contents_of_reserved {element : Element} (member : element ∈ graph.elements)
    (isReserved : reserved element.id = true) : graph.contents element = [] := by
  cases element with
  | flow flow => rfl
  | node node =>
      have limitNode := layered.nodes node (node_mem_elements.1 member) isReserved
      simp only [contents, limitNode.holdsNothing, Bool.false_eq_true, if_false]

/-- The order of the core is that of the process, without the layer. -/
theorem preorder_core {pending met : List Element} (preorder : graph.Preorder pending met)
    (known : ∀ element ∈ pending, element ∈ graph.elements) :
    (graph.core reserved).Preorder (pending.filterMap (graph.coreElement? reserved))
      (met.filterMap (graph.coreElement? reserved)) := by
  induction preorder with
  | done => exact .done
  | @next element pending inside behind within rest withinHypothesis restHypothesis =>
      obtain ⟨member, knownRest⟩ := List.forall_mem_cons.1 known
      have later := restHypothesis knownRest
      cases isReserved : reserved element.id with
      | true =>
          have nothing := layered.contents_of_reserved member isReserved
          have empty : inside = [] := by
            rw [nothing] at within
            cases within
            rfl
          rw [empty, List.singleton_append, List.filterMap_cons_none (coreElement?_of_reserved
            isReserved), List.filterMap_cons_none (coreElement?_of_reserved isReserved)]
          exact later
      | false =>
          have inner := withinHypothesis fun _ => mem_elements_of_contents
          rw [← contents_core isReserved] at inner
          rw [List.cons_append, List.filterMap_cons_some (coreElement?_of_unreserved isReserved),
            List.filterMap_cons_some (coreElement?_of_unreserved isReserved),
            List.filterMap_append, ← List.cons_append]
          exact .next inner later

/-- The walk of the core is that of the process, without the layer. -/
theorem walk_core : (graph.core reserved).walk =
    graph.walk.filterMap (graph.coreElement? reserved) := by
  obtain ⟨root, isRoot, preorder, _⟩ := layered.wellFormed.exists_walk
  obtain ⟨top, isTop, corePreorder, _⟩ := layered.wellFormed_core.exists_walk
  have shown : graph.coreElement? reserved (.node root) =
      some (.node (graph.coreNode reserved root)) :=
    coreElement?_of_unreserved (by rw [Element.id, id_of_node? isRoot, layered.root])
  have same : top = graph.coreNode reserved root := by
    rw [root_core, node?_core, layered.root, isRoot] at isTop
    exact (Option.some.inj isTop).symm
  have order := layered.preorder_core preorder fun element only => by
    rw [List.mem_singleton.1 only]
    exact node_mem_elements.2 (mem_of_node? isRoot)
  rw [List.filterMap_cons_some shown, List.filterMap_nil, ← same] at order
  exact corePreorder.unique order

/-! ## The containers around an element -/

/-- The way up in the core meets what the way up in the process meets. -/
theorem climb_core {parent : Option ElementId} {containers : List Node}
    (climb : graph.Climb parent containers)
    (holders : ∀ container ∈ containers, container.kind.isContainer = true) :
    (graph.core reserved).Climb parent (containers.map (graph.coreNode reserved)) := by
  induction climb with
  | top => exact .top
  | @up id container above found _ inductionHypothesis =>
      obtain ⟨holds, holdsAbove⟩ := List.forall_mem_cons.1 holders
      have unreserved := layered.container_unreserved (mem_of_node? found) holds
      rw [id_of_node? found] at unreserved
      have foundCore : (graph.core reserved).node? id =
          some (graph.coreNode reserved container) := by
        rw [node?_core, unreserved, found]
        rfl
      refine .up foundCore ?_
      rw [parent_coreNode]
      exact inductionHypothesis holdsAbove

/-- The ancestors in the core are those in the process. -/
theorem ancestors_core {element : Element} (member : element ∈ graph.elements)
    (unreserved : reserved element.id = false) :
    (graph.core reserved).ancestors element.id =
      (graph.ancestors element.id).map (graph.coreNode reserved) := by
  have found := element?_of_mem layered.wellFormed.distinct member
  have shown : (graph.core reserved).element? element.id =
      some (element.mapNode (graph.coreNode reserved)) := by
    rw [element?_core, found, Option.bind_some, coreElement?_of_unreserved unreserved]
  obtain ⟨shownMember, _⟩ := mem_of_element? shown
  have sameParent : (element.mapNode (graph.coreNode reserved)).parent = element.parent := by
    cases element with
    | node node => exact parent_coreNode node
    | flow flow => rfl
  have surrounds := layered.wellFormed.surrounds_ancestors member
  have coreSurrounds := layered.wellFormed_core.surrounds_ancestors shownMember
  have climb := layered.climb_core surrounds.complete fun container met =>
    (surrounds.holders container met).2
  have coreClimb := coreSurrounds.complete
  rw [sameParent, id_mapNode_coreNode] at coreClimb
  exact coreClimb.unique climb

/-! ## The flows at a node -/

/-- A flow of a reserved id joins no other nodes. -/
theorem joins_of_unreserved {reference node : ElementId} (isReserved : reserved reference = true)
    (unreserved : reserved node = false) : graph.joins reference node = false := by
  cases found : graph.flow? reference with
  | none => simp [joins, found]
  | some flow =>
      obtain rfl := id_of_flow? found
      have limitFlow := layered.flows flow (mem_of_flow? found) isReserved
      have notSource := ne_of_reserved limitFlow.source unreserved
      have notTarget := ne_of_reserved limitFlow.target unreserved
      simp [joins, found, notSource, notTarget]

/-- The core shows all references of a node that it shows. -/
theorem references_core {node : Node} (unreserved : reserved node.id = false) :
    (graph.coreNode reserved node).incoming = node.incoming ∧
      (graph.coreNode reserved node).outgoing = node.outgoing := by
  have keeps : ∀ reference,
      (!(reserved reference && graph.joins reference node.id)) = true := by
    intro reference
    cases isReserved : reserved reference with
    | false => rfl
    | true => rw [layered.joins_of_unreserved isReserved unreserved]; rfl
  rw [coreNode, Node.incoming_forgetLimits, Node.outgoing_forgetLimits]
  exact ⟨List.filter_eq_self.2 fun reference _ => keeps reference,
    List.filter_eq_self.2 fun reference _ => keeps reference⟩

theorem flowsInto_core {id : ElementId} (unreserved : reserved id = false) :
    (graph.core reserved).flowsInto id = graph.flowsInto id := by
  rw [flowsInto, flows_core, List.filter_filter, flowsInto]
  refine List.filter_congr fun flow drawn => ?_
  cases isReserved : reserved flow.id with
  | false => simp
  | true =>
      have differs := ne_of_reserved (layered.flows flow drawn isReserved).target unreserved
      simp [differs]

theorem flowsFrom_core {id : ElementId} (unreserved : reserved id = false) :
    (graph.core reserved).flowsFrom id = graph.flowsFrom id := by
  rw [flowsFrom, flows_core, List.filter_filter, flowsFrom]
  refine List.filter_congr fun flow drawn => ?_
  cases isReserved : reserved flow.id with
  | false => simp
  | true =>
      have differs := ne_of_reserved (layered.flows flow drawn isReserved).source unreserved
      simp [differs]

end Layered

/-- No node of the core refers to an element of a reserved id. -/
def Unreferenced (reserved : ElementId → Bool) (graph : Graph) : Prop :=
  ∀ node ∈ (graph.core reserved).nodes, ∀ reference,
    reference ∈ node.incoming ∨ reference ∈ node.outgoing → reserved reference = false

namespace Layered

variable {reserved : ElementId → Bool} {graph : Graph} (layered : Layered reserved graph)
include layered

section Node

variable {node : Node} (member : node ∈ graph.nodes)
include member

theorem reference_unreserved (unreferenced : Unreferenced reserved graph)
    (unreserved : reserved node.id = false) {reference : ElementId}
    (referred : reference ∈ node.incoming ∨ reference ∈ node.outgoing) :
    reserved reference = false := by
  obtain ⟨incoming, outgoing⟩ := layered.references_core unreserved
  refine unreferenced (graph.coreNode reserved node)
    (mem_nodes_core.2 ⟨node, member, unreserved, rfl⟩) reference ?_
  rw [incoming, outgoing]
  exact referred

/-- What the references of a node stand for is the same in the core. -/
theorem outgoing_core (unreferenced : Unreferenced reserved graph)
    (unreserved : reserved node.id = false) :
    (graph.core reserved).outgoing node.id = graph.outgoing node.id := by
  have resolved : ∀ references : List ElementId,
      (∀ reference ∈ references, reserved reference = false) →
        (graph.core reserved).resolve node.id references = graph.resolve node.id references := by
    intro references
    induction references with
    | nil => exact fun _ => rfl
    | cons reference rest inductionHypothesis =>
        intro known
        obtain ⟨first, others⟩ := List.forall_mem_cons.1 known
        simp only [resolve, flow?_core_of_unreserved first, inductionHypothesis others]
  have found := node?_of_mem layered.wellFormed.distinct member
  simp only [outgoing, node?_core, unreserved, Bool.false_eq_true, if_false, found,
    Option.map_some, (layered.references_core unreserved).2]
  exact resolved node.outgoing fun reference referred =>
    layered.reference_unreserved member unreferenced unreserved (.inr referred)

/-- At most one flow leaves a node of the layer, and it has no condition. -/
theorem outgoing_of_reserved (isReserved : reserved node.id = true) :
    ∃ flows, graph.outgoing node.id = .ok flows ∧ flows.length ≤ 1 ∧
      ∀ flow ∈ flows, flow.isGuarded = false := by
  have found := node?_of_mem layered.wellFormed.distinct member
  have limitNode := layered.nodes node member isReserved
  cases limitNode with
  | service _ _ _ nothing =>
      exact ⟨[], by simp only [outgoing, found, nothing, resolve], Nat.zero_le 1,
        fun _ none => absurd none List.not_mem_nil⟩
  | @event limit activity _ _ _ _ only drawn =>
      rcases List.sublist_singleton.1 only with nothing | whole
      · exact ⟨[], by simp only [outgoing, found, nothing, resolve], Nat.zero_le 1,
          fun _ none => absurd none List.not_mem_nil⟩
      · have joined := drawn (Part.flow.id limit activity) (whole ▸ List.mem_singleton_self _)
        cases isFlow : graph.flow? (Part.flow.id limit activity) with
        | none => simp [joins, isFlow] at joined
        | some flow =>
            have flowReserved : reserved flow.id = true := by
              rw [id_of_flow? isFlow]
              by_contra unreserved
              obtain ⟨source, target⟩ := layered.loose flow (mem_of_flow? isFlow)
                (by rw [id_of_flow? isFlow]; exact Bool.eq_false_iff.2 unreserved)
              simp only [joins, isFlow, Option.any_some, Bool.or_eq_true, decide_eq_true_eq]
                at joined
              rcases joined with isSource | isTarget
              · exact ne_of_reserved isReserved source isSource.symm
              · exact ne_of_reserved isReserved target isTarget.symm
            have limitFlow := layered.flows flow (mem_of_flow? isFlow) flowReserved
            refine ⟨[flow], by simp only [outgoing, found, whole, resolve, isFlow], Nat.le_refl 1,
              fun other only => ?_⟩
            rw [List.mem_singleton.1 only, SequenceFlow.isGuarded, limitFlow.condition,
              limitFlow.notDefault]
            rfl

end Node

end Layered

end TimeLimit

end BusinessProcess
