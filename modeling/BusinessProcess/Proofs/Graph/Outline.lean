import BusinessProcess.Proofs.Graph.Commute
import BusinessProcess.Proofs.Graph.Face
import Mathlib.Data.List.Forall2
import Mathlib.Data.List.Perm.Basic

/-!
# Processes up to order

The outline of an element is the element without the list of its children. In a well-formed process
the children of a container are the elements that name it as their parent, so the outlines say all
that there is to say but for orders: the one in which elements are stored and the one in which
containers list them.
-/

namespace BusinessProcess

/-- The node without the list of its children. -/
def Node.outline (node : Node) : Node :=
  { node with children := [] }

theorem Node.outline_linkIncoming (node : Node) (flow : ElementId) :
    (node.linkIncoming flow).outline = node.outline.linkIncoming flow :=
  apply_ite Node.outline _ _ _

theorem Node.outline_linkOutgoing (node : Node) (flow : ElementId) :
    (node.linkOutgoing flow).outline = node.outline.linkOutgoing flow :=
  apply_ite Node.outline _ _ _

/-- Two nodes differ in the order of their children at most. -/
structure Node.Reordered (first second : Node) : Prop where
  outline : first.outline = second.outline
  children : first.children.Perm second.children

namespace Graph

/-- The outline of the element with the given id. -/
def outline? (graph : Graph) (id : ElementId) : Option Element :=
  (graph.element? id).map (Element.mapNode Node.outline)

/-- Two processes have the same elements with the same contents, in any order and with children in
any order. -/
structure Reordered (first second : Graph) : Prop where
  root : first.root = second.root
  nodes : ∃ nodes, first.nodes.Perm nodes ∧ List.Forall₂ Node.Reordered nodes second.nodes
  flows : first.flows.Perm second.flows

/-! ## Reading outlines -/

section Read

variable {graph : Graph} {id : ElementId}

/-- A node is found under the id of its outline. -/
theorem node?_of_outline? {outline : Node} (found : graph.outline? id = some (.node outline)) :
    ∃ node, graph.node? id = some node ∧ node.outline = outline := by
  unfold outline? element? at found
  split at found
  next node present => exact ⟨node, present, Element.node.inj (Option.some.inj found)⟩
  next => cases present : graph.flow? id <;> simp [present, Element.mapNode] at found

theorem outline?_of_node? {node : Node} (found : graph.node? id = some node) :
    graph.outline? id = some (.node node.outline) := by
  simp only [outline?, element?, found, Option.map_some, Element.mapNode]

/-- Where the outlines under an id agree, the nodes found under it have the same outline. -/
theorem map_outline_node? {other : Graph} (agree : graph.outline? id = other.outline? id) :
    (graph.node? id).map Node.outline = (other.node? id).map Node.outline := by
  cases found : graph.node? id with
  | some node =>
      rw [outline?_of_node? found] at agree
      obtain ⟨twin, twinFound, same⟩ := node?_of_outline? agree.symm
      rw [twinFound, Option.map_some, Option.map_some, same]
  | none =>
      cases otherFound : other.node? id with
      | none => rfl
      | some twin =>
          rw [outline?_of_node? otherFound] at agree
          obtain ⟨node, present, _⟩ := node?_of_outline? agree
          rw [found] at present
          cases present

/-- A flow is found under the id of its outline. -/
theorem flow?_of_outline? {flow : SequenceFlow} (found : graph.outline? id = some (.flow flow)) :
    graph.flow? id = some flow := by
  unfold outline? element? at found
  split at found
  next => cases found
  next =>
    cases present : graph.flow? id with
    | none => simp [present] at found
    | some other => simpa [present, Element.mapNode] using found

end Read

/-! ## Outlines after a change -/

section Change

variable {graph : Graph}

/-- A changed node has the changed outline, and every other outline is as before. -/
theorem outline?_updateNode (graph : Graph) (id other : ElementId) {change : Node → Node}
    (view : Node → Node) (keeps : ∀ node, (change node).id = node.id)
    (shows : ∀ node, (change node).outline = view node.outline) :
    (graph.updateNode id change).outline? other =
      if other = id then (graph.outline? other).map (Element.mapNode view)
      else graph.outline? other := by
  rw [outline?, element?_updateNode graph id other keeps]
  split
  · rw [Option.map_map, outline?, Option.map_map]
    refine Option.map_congr fun element _ => ?_
    cases element with
    | node node => exact congrArg Element.node (shows node)
    | flow flow => rfl
  · rfl

/-- A change that keeps the outlines of nodes keeps all outlines. -/
theorem outline?_updateNode_of_outline_eq (graph : Graph) (id other : ElementId)
    {change : Node → Node} (shows : ∀ node, (change node).outline = node.outline) :
    (graph.updateNode id change).outline? other = graph.outline? other := by
  have keeps : ∀ node, (change node).id = node.id := fun node =>
    (congrArg Node.id (shows node) :)
  have identity : ∀ outline : Option Element,
      outline.map (Element.mapNode fun node => node) = outline := by
    intro outline
    cases outline with
    | none => rfl
    | some element => cases element <;> rfl
  rw [outline?_updateNode graph id other (fun node => node) keeps shows, identity, ite_self]

/-- Erasing what joins no other node takes the outlines away and changes no other one. -/
theorem outline?_without {doomed : ElementId → Bool}
    (apart : ∀ reference node, doomed reference = true → graph.joins reference node = true →
      doomed node = true) (id : ElementId) :
    (graph.without doomed).outline? id = if doomed id then none else graph.outline? id := by
  rw [outline?, element?_without]
  split
  · rfl
  next kept =>
    rw [Option.map_map, outline?]
    refine Option.map_congr fun element found => ?_
    cases element with
    | flow flow => rfl
    | node node =>
        have sameId : node.id = id := (mem_of_element? found).2
        have keeps : ∀ reference,
            (!(doomed reference && graph.joins reference node.id)) = true := by
          intro reference
          rw [Bool.not_eq_true', ← Bool.not_eq_true, Bool.and_eq_true]
          rintro ⟨gone, joined⟩
          exact kept (sameId ▸ apart reference node.id gone joined)
        refine congrArg Element.node ?_
        simp only [prune, Node.outline, keeps, List.filter_true]

/-- A new element has its outline, and every other outline is as before. -/
theorem outline?_hold {parent : ElementId} {element : Element} (free : element.id ∉ graph.ids)
    (id : ElementId) : (graph.hold parent element).outline? id =
      if id = element.id then some (element.mapNode Node.outline) else graph.outline? id := by
  have listed : (graph.updateNode parent (·.addChild element.id)).outline? id =
      graph.outline? id :=
    outline?_updateNode_of_outline_eq graph parent id fun _ => rfl
  rw [outline?, element?_hold free]
  split
  · rfl
  · exact listed

end Change

/-! ## Outlines say all but orders -/

/-- What has an id and a parent is told by outlines. -/
theorem exists_element_iff {graph : Graph} (distinct : graph.ids.Nodup) {id : ElementId}
    {parent : Option ElementId} :
    (∃ element ∈ graph.elements, element.id = id ∧ element.parent = parent) ↔
      ∃ outline, graph.outline? id = some outline ∧ outline.parent = parent := by
  have sameParent : ∀ element : Element,
      (element.mapNode Node.outline).parent = element.parent := by
    intro element
    cases element <;> rfl
  constructor
  · rintro ⟨element, member, rfl, rfl⟩
    refine ⟨element.mapNode Node.outline, ?_, sameParent element⟩
    rw [outline?, element?_of_mem distinct member, Option.map_some]
  · rintro ⟨outline, found, rfl⟩
    obtain ⟨element, present, rfl⟩ := Option.map_eq_some_iff.1 found
    obtain ⟨member, sameId⟩ := mem_of_element? present
    exact ⟨element, member, sameId, (sameParent element).symm⟩

section Compare

variable {first second : Graph} (wellFormed : first.WellFormed) (other : second.WellFormed)
  (same : ∀ id, first.outline? id = second.outline? id)
include wellFormed other same

/-- Nodes with the same outline list the same children. -/
private theorem reordered_of_outline_eq {node twin : Node} (member : node ∈ first.nodes)
    (twinMember : twin ∈ second.nodes) (outline : node.outline = twin.outline) :
    node.Reordered twin := by
  refine ⟨outline, ?_⟩
  have sameId : node.id = twin.id := (congrArg Node.id outline :)
  rw [List.perm_ext_iff_of_nodup (wellFormed.nodup_listed member) (other.nodup_listed twinMember)]
  intro child
  rw [wellFormed.mem_listed_iff member, other.mem_listed_iff twinMember,
    exists_element_iff wellFormed.distinct, exists_element_iff other.distinct, same, sameId]

omit other in
/-- Each node has a twin of the same outline. -/
private theorem exists_outlined {node : Node} (member : node ∈ first.nodes) :
    ∃ twin, second.node? node.id = some twin ∧ twin ∈ second.nodes ∧
      node.outline = twin.outline := by
  have found := outline?_of_node? (node?_of_mem wellFormed.distinct member)
  rw [same] at found
  obtain ⟨twin, present, outline⟩ := node?_of_outline? found
  exact ⟨twin, present, mem_of_node? present, outline.symm⟩

omit other in
private theorem mem_flows_of_outline {flow : SequenceFlow} (member : flow ∈ first.flows) :
    flow ∈ second.flows := by
  have found : first.outline? flow.id = some (.flow flow) := by
    rw [outline?, show flow.id = (Element.flow flow).id from rfl,
      element?_of_mem wellFormed.distinct (flow_mem_elements.2 member)]
    rfl
  rw [same] at found
  exact mem_of_flow? (flow?_of_outline? found)

/-- Well-formed processes with the same root and the same outlines differ in order at most. -/
theorem WellFormed.reordered (root : first.root = second.root) : first.Reordered second := by
  have back : ∀ id, second.outline? id = first.outline? id := fun id => (same id).symm
  refine ⟨root, ⟨second.nodes.map fun node => (first.node? node.id).getD node, ?_, ?_⟩, ?_⟩
  · -- Every node of the first process is the twin of one node of the second.
    have ids : (second.nodes.map fun node => (first.node? node.id).getD node).map Node.id =
        second.nodes.map Node.id := by
      rw [List.map_map]
      refine List.map_congr_left fun node member => ?_
      obtain ⟨twin, found, _⟩ := exists_outlined other back member
      rw [Function.comp_apply, found, Option.getD_some, id_of_node? found]
    rw [List.perm_ext_iff_of_nodup (nodup_nodes wellFormed.distinct)
      (.of_map Node.id (ids ▸ (List.nodup_append.1 other.distinct).1))]
    intro node
    rw [List.mem_map]
    constructor
    · intro member
      obtain ⟨twin, _, twinMember, outline⟩ := exists_outlined wellFormed same member
      have sameId : node.id = twin.id := (congrArg Node.id outline :)
      exact ⟨twin, twinMember, by
        rw [← sameId, node?_of_mem wellFormed.distinct member, Option.getD_some]⟩
    · rintro ⟨twin, twinMember, rfl⟩
      obtain ⟨node, found, member, _⟩ := exists_outlined other back twinMember
      rw [found, Option.getD_some]
      exact member
  · refine List.forall₂_map_left_iff.2 (List.forall₂_same.2 fun node member => ?_)
    obtain ⟨twin, found, twinMember, outline⟩ := exists_outlined other back member
    rw [found, Option.getD_some]
    exact reordered_of_outline_eq wellFormed other same twinMember member outline.symm
  · rw [List.perm_ext_iff_of_nodup (nodup_flows wellFormed.distinct) (nodup_flows other.distinct)]
    exact fun flow => ⟨mem_flows_of_outline wellFormed same, mem_flows_of_outline other back⟩

end Compare

end Graph

end BusinessProcess
