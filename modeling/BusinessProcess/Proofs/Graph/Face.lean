import BusinessProcess.Proofs.Graph.Erasure
import BusinessProcess.Proofs.Graph.Shape

/-!
# The face of an element

What an element shows by itself, apart from what it lists and refers to, is its face. A change of
one element leaves the faces of all others alone, so faces are what a change of several steps is
followed by.
-/

namespace BusinessProcess

/-- The node without what it lists and refers to. -/
def Node.face (node : Node) : Node :=
  { node with children := [], incoming := [], outgoing := [] }

/-- What an element shows by itself. -/
def Element.face : Element → Element
  | .node vertex => .node vertex.face
  | .flow edge => .flow edge

/-- The element, changed if it is a node. -/
def Element.mapNode (change : Node → Node) : Element → Element
  | .node vertex => .node (change vertex)
  | .flow edge => .flow edge

@[simp] theorem Node.id_face (node : Node) : node.face.id = node.id :=
  rfl

@[simp] theorem Element.id_face (element : Element) : element.face.id = element.id := by
  cases element <;> rfl

namespace Graph

/-! ## Finding elements after a change -/

/-- What is doomed is not found any more, and every node is found pruned. -/
theorem element?_without (graph : Graph) (doomed : ElementId → Bool) (id : ElementId) :
    (graph.without doomed).element? id =
      if doomed id then none
      else (graph.element? id).map (Element.mapNode (graph.prune doomed)) := by
  rw [element?, node?_without, flow?_without]
  by_cases gone : doomed id = true
  · simp [gone]
  · rw [if_neg gone, if_neg gone, if_neg gone, element?]
    cases graph.node? id with
    | some node => rfl
    | none => cases graph.flow? id <;> rfl

/-- A change that keeps ids is seen under the id of the changed node and nowhere else. -/
theorem element?_updateNode (graph : Graph) (id other : ElementId) {change : Node → Node}
    (keeps : ∀ node, (change node).id = node.id) :
    (graph.updateNode id change).element? other =
      if other = id then (graph.element? other).map (Element.mapNode change)
      else graph.element? other := by
  have sameFlow : (graph.updateNode id change).flow? other = graph.flow? other := rfl
  rw [element?, node?_updateNode graph id other keeps, sameFlow, element?]
  by_cases same : other = id
  · rw [if_pos same, if_pos same]
    cases graph.node? other with
    | some node => rfl
    | none => cases graph.flow? other <;> rfl
  · rw [if_neg same, if_neg same]

/-- A new element is found under its id, and every other one as its parent lists the new one. -/
theorem element?_hold {graph : Graph} {parent : ElementId} {element : Element}
    (free : element.id ∉ graph.ids) (id : ElementId) :
    (graph.hold parent element).element? id =
      if id = element.id then some element
      else (graph.updateNode parent (·.addChild element.id)).element? id := by
  have unused := free
  rw [← contains_iff, contains, Bool.or_eq_true, not_or, Option.not_isSome_iff_eq_none,
    Option.not_isSome_iff_eq_none] at unused
  have noNode : (graph.updateNode parent (·.addChild element.id)).node? element.id = none := by
    rw [node?_updateNode graph parent element.id fun _ => by rfl, unused.1, Option.map_none,
      ite_self]
  have noFlow : (graph.updateNode parent (·.addChild element.id)).flow? element.id = none :=
    unused.2
  cases element with
  | node node =>
      have found := node?_append noNode id
      rw [element?, hold, found]
      by_cases same : id = node.id
      · rw [if_pos same, if_pos (show id = (Element.node node).id from same)]
      · rw [if_neg same, if_neg (show ¬ id = (Element.node node).id from same)]
        rfl
  | flow flow =>
      have found := flow?_append noFlow id
      rw [element?, hold, found]
      by_cases same : id = flow.id
      · subst same
        have absent : ({ graph.updateNode parent (·.addChild flow.id) with
            flows := (graph.updateNode parent (·.addChild flow.id)).flows ++ [flow] } :
              Graph).node? flow.id = none := noNode
        simp only [Element.id, absent, if_true, Option.map_some]
      · rw [if_neg same, if_neg (show ¬ id = (Element.flow flow).id from same)]
        rfl

/-! ## Faces -/

/-- The face of the element with the given id. -/
def face? (graph : Graph) (id : ElementId) : Option Element :=
  (graph.element? id).map Element.face

/-! ## Reading faces -/

/-- An id has no face exactly if it is free. -/
theorem face?_eq_none_iff {graph : Graph} {id : ElementId} :
    graph.face? id = none ↔ id ∉ graph.ids := by
  rw [← contains_iff, face?, Option.map_eq_none_iff, element?, contains]
  cases graph.node? id <;> simp

/-- A face is that of an element with the id. -/
theorem exists_of_face? {graph : Graph} {id : ElementId} {face : Element}
    (found : graph.face? id = some face) :
    ∃ element ∈ graph.elements, element.id = id ∧ element.face = face := by
  obtain ⟨element, present, same⟩ := Option.map_eq_some_iff.1 found
  obtain ⟨member, named⟩ := mem_of_element? present
  exact ⟨element, member, named, same⟩

/-- A node is found under the id of its face. -/
theorem node?_of_face? {graph : Graph} {id : ElementId} {face : Node}
    (found : graph.face? id = some (.node face)) :
    ∃ node, graph.node? id = some node ∧ node.face = face := by
  unfold face? element? at found
  split at found
  next node present => exact ⟨node, present, Element.node.inj (Option.some.inj found)⟩
  next => cases present : graph.flow? id <;> simp [present, Element.face] at found

/-- A flow is found under the id of its face. -/
theorem flow?_of_face? {graph : Graph} {id : ElementId} {flow : SequenceFlow}
    (found : graph.face? id = some (.flow flow)) : graph.flow? id = some flow := by
  unfold face? element? at found
  split at found
  next => cases found
  next =>
    cases present : graph.flow? id with
    | none => simp [present] at found
    | some other => simpa [present, Element.face] using found

/-- Under distinct ids, each element shows its face under its own id. -/
theorem face?_of_mem {graph : Graph} (distinct : graph.ids.Nodup) {element : Element}
    (member : element ∈ graph.elements) : graph.face? element.id = some element.face := by
  rw [face?, element?_of_mem distinct member, Option.map_some]

theorem face?_of_node_mem {graph : Graph} (distinct : graph.ids.Nodup) {node : Node}
    (member : node ∈ graph.nodes) : graph.face? node.id = some (.node node.face) :=
  face?_of_mem distinct (node_mem_elements.2 member)

theorem face?_of_flow_mem {graph : Graph} (distinct : graph.ids.Nodup) {flow : SequenceFlow}
    (member : flow ∈ graph.flows) : graph.face? flow.id = some (.flow flow) :=
  face?_of_mem distinct (flow_mem_elements.2 member)

/-! ## Changing faces -/

/-- What is doomed shows no face any more, and every other face is as before. -/
theorem face?_without (graph : Graph) (doomed : ElementId → Bool) (id : ElementId) :
    (graph.without doomed).face? id = if doomed id then none else graph.face? id := by
  rw [face?, element?_without]
  split
  · rfl
  · rw [Option.map_map, face?]
    refine Option.map_congr fun element _ => ?_
    cases element <;> rfl

/-- A changed node shows the changed face, and every other face is as before. -/
theorem face?_updateNode (graph : Graph) (id other : ElementId) {change : Node → Node}
    (view : Node → Node) (keeps : ∀ node, (change node).id = node.id)
    (shows : ∀ node, (change node).face = view node.face) :
    (graph.updateNode id change).face? other =
      if other = id then (graph.face? other).map (Element.mapNode view) else graph.face? other := by
  rw [face?, element?_updateNode graph id other keeps]
  split
  · rw [Option.map_map, face?, Option.map_map]
    refine Option.map_congr fun element _ => ?_
    cases element with
    | node node => exact congrArg Element.node (shows node)
    | flow flow => rfl
  · rfl

/-- A change that keeps the faces of nodes keeps all faces. -/
theorem face?_updateNode_of_face_eq (graph : Graph) (id other : ElementId)
    {change : Node → Node} (shows : ∀ node, (change node).face = node.face) :
    (graph.updateNode id change).face? other = graph.face? other := by
  have keeps : ∀ node, (change node).id = node.id := fun node =>
    (congrArg Node.id (shows node) :)
  have identity : ∀ face : Option Element, face.map (Element.mapNode fun node => node) = face := by
    intro face
    cases face with
    | none => rfl
    | some element => cases element <;> rfl
  rw [face?_updateNode graph id other (fun node => node) keeps shows, identity, ite_self]

/-- A new element shows its face, and every other face is as before. -/
theorem face?_hold {graph : Graph} {parent : ElementId} {element : Element}
    (free : element.id ∉ graph.ids) (id : ElementId) :
    (graph.hold parent element).face? id =
      if id = element.id then some element.face else graph.face? id := by
  have listed : (graph.updateNode parent (·.addChild element.id)).face? id = graph.face? id :=
    face?_updateNode_of_face_eq graph parent id fun _ => rfl
  rw [face?, element?_hold free]
  split
  · rfl
  · exact listed

/-! ## Removing and adding single elements -/

section Isolated

variable {graph : Graph} (wellFormed : graph.WellFormed) {node : Node}
  (member : node ∈ graph.nodes)
include wellFormed member

/-- A node that is no container lists nothing. -/
theorem WellFormed.childless_of_holdsNothing (holdsNothing : node.kind.isContainer = false) :
    node.children = [] := by
  refine List.eq_nil_iff_forall_not_mem.2 fun child isListed => ?_
  obtain ⟨element, present, _, parent⟩ := wellFormed.listed node member child isListed
  obtain ⟨container, containerMember, same, isContainer⟩ :=
    wellFormed.parent_named present parent
  rw [wellFormed.node_eq containerMember member same, holdsNothing] at isContainer
  cases isContainer

/-- A node that lists nothing is nothing's parent. -/
theorem WellFormed.parent_ne_of_childless (childless : node.children = []) {element : Element}
    (present : element ∈ graph.elements) : element.parent ≠ some node.id := by
  intro parent
  obtain ⟨container, containerMember, named, _, once⟩ :=
    wellFormed.held element present (wellFormed.held_id_ne_root present parent)
  have same : container.id = node.id := Option.some.inj (named.symm.trans parent)
  rw [wellFormed.node_eq containerMember member same, childless, List.count_nil] at once
  cases once

/-- A node that lists nothing is all of its subtree. -/
theorem WellFormed.mem_subtree_of_childless (childless : node.children = [])
    {inner : ElementId} : inner ∈ graph.subtree node.id ↔ inner = node.id := by
  rw [wellFormed.mem_subtree member]
  constructor
  · rintro ⟨depth, within⟩
    cases depth with
    | zero =>
        cases within
        rfl
    | succ depth =>
        obtain ⟨child, childMember, parent, _⟩ := Within.succ_iff.1 within
        exact absurd parent (wellFormed.parent_ne_of_childless member childless
          (node_mem_elements.2 childMember))
  · rintro rfl
    exact ⟨0, .here⟩

/-- A flow that touches a node that lists nothing starts or ends there. -/
theorem WellFormed.touches_of_childless (childless : node.children = [])
    {flow : SequenceFlow} (present : flow ∈ graph.flows)
    (touched : touches (graph.subtree node.id) flow = true) :
    flow.source = node.id ∨ flow.target = node.id := by
  have notParent := wellFormed.parent_ne_of_childless member childless
    (flow_mem_elements.2 present)
  simp only [touches, Bool.or_eq_true, List.contains_iff_mem,
    wellFormed.mem_subtree_of_childless member childless, Option.any_eq_true] at touched
  rcases touched with atEnd | ⟨parent, named, isNode⟩
  · exact atEnd
  · exact absurd (named.trans (congrArg some isNode)) notParent

/-- A node that lists nothing and that no flow touches goes alone. -/
theorem doomedBy_of_isolated (childless : node.children = [])
    (loose : ∀ flow ∈ graph.flows, flow.source ≠ node.id ∧ flow.target ≠ node.id)
    (id : ElementId) : graph.doomedBy node.id id = decide (id = node.id) := by
  have untouched : graph.touching node.id = [] := by
    rw [touching, List.map_eq_nil_iff, List.filter_eq_nil_iff]
    intro flow present touched
    obtain ⟨notSource, notTarget⟩ := loose flow present
    rcases wellFormed.touches_of_childless member childless present touched with
      isSource | isTarget
    · exact notSource isSource
    · exact notTarget isTarget
  rw [doomedBy, untouched, List.contains_nil, Bool.or_false, Bool.eq_iff_iff,
    List.contains_iff_mem, wellFormed.mem_subtree_of_childless member childless,
    decide_eq_true_iff]

omit wellFormed member in
/-- Of a node that lists nothing and that no flow touches, all is left whatever goes. -/
theorem prune_of_isolated (childless : node.children = [])
    (loose : ∀ flow ∈ graph.flows, flow.source ≠ node.id ∧ flow.target ≠ node.id)
    (doomed : ElementId → Bool) : graph.prune doomed node = node := by
  have joinsNothing : ∀ reference, graph.joins reference node.id = false := by
    intro reference
    rw [joins, Option.any_eq_false]
    intro flow found
    obtain ⟨notSource, notTarget⟩ := loose flow (mem_of_flow? found)
    simp [notSource, notTarget]
  have noChildren : node.children.filter (!doomed ·) = node.children := by
    rw [childless, List.filter_nil]
  simp [prune, noChildren, joinsNothing]

/-- Removing a node that lists nothing and that no flow touches erases that node alone and gives
it back as it was. -/
theorem WellFormed.removeNode_of_isolated (other : node.id ≠ graph.root)
    (childless : node.children = [])
    (loose : ∀ flow ∈ graph.flows, flow.source ≠ node.id ∧ flow.target ≠ node.id) :
    graph.removeNode node.id = .ok (some node, graph.without (· = node.id)) ∧
      (graph.without (· = node.id)).WellFormed := by
  have whole := wellFormed.removeNode_eq member other
  have left := wellFormed.without (wellFormed.severable_node member other)
  rw [prune_of_isolated childless loose,
    without_congr graph (doomedBy_of_isolated wellFormed member childless loose)] at whole
  rw [without_congr graph (doomedBy_of_isolated wellFormed member childless loose)] at left
  exact ⟨whole, left⟩

end Isolated

/-- A place is vacant if the id shows no face and the parent shows that of a container. -/
theorem vacant_of_face? {graph : Graph} {parent id : ElementId} {container : Node}
    (free : graph.face? id = none) (found : graph.face? parent = some (.node container))
    (isContainer : container.kind.isContainer = true) : graph.Vacant parent id := by
  obtain ⟨node, present, rfl⟩ := node?_of_face? found
  exact ⟨face?_eq_none_iff.1 free, node, mem_of_node? present, id_of_node? present, isContainer⟩

/-- An addition to a vacant place is accepted. -/
theorem WellFormed.checkAddition_of_vacant {graph : Graph} (wellFormed : graph.WellFormed)
    {parent id : ElementId} (vacant : graph.Vacant parent id) :
    graph.checkAddition parent id = .ok () := by
  obtain ⟨container, member, rfl, isContainer⟩ := vacant.container
  have free : graph.contains id = false := by
    rw [← Bool.not_eq_true, contains_iff]
    exact vacant.free
  simp [checkAddition, free, node?_of_mem wellFormed.distinct member, isContainer]

/-- A well-formed process shows one more face than another one, and else the same. -/
structure Adds (graph : Graph) (face : Element) (added : Graph) : Prop where
  wellFormed : added.WellFormed
  root : added.root = graph.root
  faces : ∀ id, added.face? id = if id = face.id then some face else graph.face? id

theorem Adds.face?_self {graph added : Graph} {face : Element} (adds : graph.Adds face added) :
    added.face? face.id = some face := by
  rw [adds.faces, if_pos rfl]

theorem Adds.face?_of_ne {graph added : Graph} {face : Element} (adds : graph.Adds face added)
    {id : ElementId} (differs : id ≠ face.id) : added.face? id = graph.face? id := by
  rw [adds.faces, if_neg differs]

/-- What was shown is still shown if the id of the new face was free. -/
theorem Adds.face?_of_shown {graph added : Graph} {face shown : Element}
    (adds : graph.Adds face added) (free : graph.face? face.id = none) {id : ElementId}
    (found : graph.face? id = some shown) : added.face? id = some shown := by
  rw [adds.face?_of_ne]
  · exact found
  · rintro rfl
    cases free.symm.trans found

/-- A node that is added to a vacant place is held by the parent. -/
theorem WellFormed.addNode_eq_hold {graph : Graph} (wellFormed : graph.WellFormed)
    {parent : ElementId} {node : Node} (vacant : graph.Vacant parent node.id) :
    graph.addNode parent node =
      .ok (graph.hold parent (.node { node with parent := some parent })) := by
  simp only [Graph.addNode, wellFormed.checkAddition_of_vacant vacant]
  rfl

/-- A node that lists nothing is added to a vacant place. -/
theorem WellFormed.addNode_of_vacant {graph : Graph} (wellFormed : graph.WellFormed)
    {parent : ElementId} {node : Node} (vacant : graph.Vacant parent node.id)
    (empty : node.children = []) : ∃ added, graph.addNode parent node = .ok added ∧
      graph.Adds (Element.node { node with parent := some parent }).face added := by
  have done := wellFormed.addNode_eq_hold vacant
  exact ⟨_, done, wellFormed.addNode empty done, root_hold _ _ _, face?_hold vacant.free⟩

/-- A flow is added to a vacant place if its ends are there. -/
theorem WellFormed.addFlow_of_vacant {graph : Graph} (wellFormed : graph.WellFormed)
    {parent : ElementId} {flow : SequenceFlow} (vacant : graph.Vacant parent flow.id)
    (source : (graph.node? flow.source).isSome = true)
    (target : (graph.node? flow.target).isSome = true) :
    ∃ added, graph.addFlow parent flow = .ok added ∧
      graph.Adds (.flow { flow with parent := some parent }) added := by
  have drawn : graph.addFlowUnlinked parent flow =
      .ok (graph.hold parent (.flow { flow with parent := some parent })) := by
    have hasSource : (graph.node? flow.source).isNone = false := by
      rw [Option.isNone_eq_false_iff]
      exact source
    have hasTarget : (graph.node? flow.target).isNone = false := by
      rw [Option.isNone_eq_false_iff]
      exact target
    simp only [Graph.addFlowUnlinked, wellFormed.checkAddition_of_vacant vacant, hasSource,
      hasTarget]
    rfl
  have done : graph.addFlow parent flow =
      .ok (((graph.hold parent (.flow { flow with parent := some parent })).updateNode flow.source
        (·.linkOutgoing flow.id)).updateNode flow.target (·.linkIncoming flow.id)) := by
    simp only [Graph.addFlow, drawn]
  refine ⟨_, done, wellFormed.addFlow done, root_addFlow done, fun id => ?_⟩
  have linked : ∀ node : Node, (node.linkOutgoing flow.id).face = node.face := by
    intro node
    unfold Node.linkOutgoing
    split <;> rfl
  have linkedBack : ∀ node : Node, (node.linkIncoming flow.id).face = node.face := by
    intro node
    unfold Node.linkIncoming
    split <;> rfl
  rw [face?_updateNode_of_face_eq _ _ _ linkedBack, face?_updateNode_of_face_eq _ _ _ linked]
  exact face?_hold vacant.free id

/-- A node that lists nothing and was added shows its face. -/
theorem WellFormed.adds_of_addNode {graph added : Graph} (wellFormed : graph.WellFormed)
    {parent : ElementId} {node : Node} (empty : node.children = [])
    (done : graph.addNode parent node = .ok added) : graph.face? node.id = none ∧
      graph.Adds (Element.node { node with parent := some parent }).face added := by
  have vacant := (addNode_eq_ok done).1
  obtain ⟨same, again, adds⟩ := wellFormed.addNode_of_vacant vacant empty
  obtain rfl : added = same := Except.ok.inj (done.symm.trans again)
  exact ⟨face?_eq_none_iff.2 vacant.free, adds⟩

/-- A flow that was added shows its face. -/
theorem WellFormed.adds_of_addFlow {graph added : Graph} (wellFormed : graph.WellFormed)
    {parent : ElementId} {flow : SequenceFlow} (done : graph.addFlow parent flow = .ok added) :
    graph.face? flow.id = none ∧
      graph.Adds (.flow { flow with parent := some parent }) added := by
  obtain ⟨drawn, isDrawn, _⟩ := addFlow_eq_ok done
  obtain ⟨vacant, ⟨source, target⟩, _⟩ := addFlowUnlinked_eq_ok isDrawn
  obtain ⟨same, again, adds⟩ := wellFormed.addFlow_of_vacant vacant (node?_isSome_iff.2 source)
    (node?_isSome_iff.2 target)
  obtain rfl : added = same := Except.ok.inj (done.symm.trans again)
  exact ⟨face?_eq_none_iff.2 vacant.free, adds⟩

end Graph

end BusinessProcess
