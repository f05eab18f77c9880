import BusinessProcess.Graph.Edit
import Mathlib.Data.List.Nodup

/-!
# The elements of a process and how they are found

A process looks its elements up by id, so membership and look-up agree only while no id is used
twice. This module states that agreement and says what each basic change does to look-ups; the
changes themselves are not opened again.
-/

namespace BusinessProcess.Graph

/-- Distinct keys make the search for the key of a member find that member. -/
private theorem find?_key_of_mem {α : Type} {key : α → ElementId} {items : List α}
    (distinct : (items.map key).Nodup) {item : α} (member : item ∈ items) :
    items.find? (fun other => key other = key item) = some item := by
  cases found : items.find? (fun other => key other = key item) with
  | none =>
      have absent := List.find?_eq_none.1 found item member
      simp at absent
  | some other =>
      have same : key other = key item := by simpa using List.find?_some found
      rw [List.inj_on_of_nodup_map distinct (List.mem_of_find?_eq_some found) member same]

/-! ## Elements -/

/-- Processes are the same if they have the same root, nodes and flows. -/
@[ext] theorem ext {left right : Graph} (root : left.root = right.root)
    (nodes : left.nodes = right.nodes) (flows : left.flows = right.flows) : left = right := by
  cases left
  cases right
  cases root
  cases nodes
  cases flows
  rfl

/-- All elements of the process, the nodes first. -/
def elements (graph : Graph) : List Element :=
  graph.nodes.map .node ++ graph.flows.map .flow

/-- The ids in use, those of nodes first. -/
def ids (graph : Graph) : List ElementId :=
  graph.nodes.map Node.id ++ graph.flows.map SequenceFlow.id

theorem map_id_elements (graph : Graph) : graph.elements.map Element.id = graph.ids := by
  simp only [elements, ids, List.map_append, List.map_map]
  rfl

@[simp] theorem node_mem_elements {graph : Graph} {node : Node} :
    Element.node node ∈ graph.elements ↔ node ∈ graph.nodes := by
  simp [elements]

@[simp] theorem flow_mem_elements {graph : Graph} {flow : SequenceFlow} :
    Element.flow flow ∈ graph.elements ↔ flow ∈ graph.flows := by
  simp [elements]

theorem mem_ids {graph : Graph} {id : ElementId} :
    id ∈ graph.ids ↔ ∃ element ∈ graph.elements, element.id = id := by
  rw [← map_id_elements, List.mem_map]

theorem id_mem_of_node {graph : Graph} {node : Node} (member : node ∈ graph.nodes) :
    node.id ∈ graph.ids :=
  mem_ids.2 ⟨.node node, node_mem_elements.2 member, rfl⟩

theorem id_mem_of_flow {graph : Graph} {flow : SequenceFlow} (member : flow ∈ graph.flows) :
    flow.id ∈ graph.ids :=
  mem_ids.2 ⟨.flow flow, flow_mem_elements.2 member, rfl⟩

theorem mem_of_node? {graph : Graph} {id : ElementId} {node : Node}
    (found : graph.node? id = some node) : node ∈ graph.nodes :=
  List.mem_of_find?_eq_some found

theorem mem_of_flow? {graph : Graph} {id : ElementId} {flow : SequenceFlow}
    (found : graph.flow? id = some flow) : flow ∈ graph.flows :=
  List.mem_of_find?_eq_some found

/-- An id names a node exactly if some node carries it. -/
theorem node?_isSome_iff {graph : Graph} {id : ElementId} :
    (graph.node? id).isSome = true ↔ ∃ node ∈ graph.nodes, node.id = id := by
  simp [node?, List.find?_isSome]

/-- An id names a flow exactly if some flow carries it. -/
theorem flow?_isSome_iff {graph : Graph} {id : ElementId} :
    (graph.flow? id).isSome = true ↔ ∃ flow ∈ graph.flows, flow.id = id := by
  simp [flow?, List.find?_isSome]

/-- An id is taken exactly if it is among those in use. -/
theorem contains_iff {graph : Graph} {id : ElementId} :
    graph.contains id = true ↔ id ∈ graph.ids := by
  rw [contains, Bool.or_eq_true, node?_isSome_iff, flow?_isSome_iff, ids, List.mem_append,
    List.mem_map, List.mem_map]

/-- A free id names no flow. -/
theorem flow?_of_free {graph : Graph} {id : ElementId} (free : id ∉ graph.ids) :
    graph.flow? id = none := by
  cases found : graph.flow? id with
  | none => rfl
  | some flow => exact absurd (id_of_flow? found ▸ id_mem_of_flow (mem_of_flow? found)) free

section Distinct

variable {graph : Graph} (distinct : graph.ids.Nodup)
include distinct

/-- Under distinct ids no node occurs twice. -/
theorem nodup_nodes : graph.nodes.Nodup :=
  List.Nodup.of_map Node.id (List.nodup_append.1 distinct).1

/-- Under distinct ids no flow is drawn twice. -/
theorem nodup_flows : graph.flows.Nodup :=
  List.Nodup.of_map SequenceFlow.id (List.nodup_append.1 distinct).2.1

/-- Under distinct ids, each node is found under its own id. -/
theorem node?_of_mem {node : Node} (member : node ∈ graph.nodes) :
    graph.node? node.id = some node :=
  find?_key_of_mem (List.nodup_append.1 distinct).1 member

/-- Under distinct ids, each flow is found under its own id. -/
theorem flow?_of_mem {flow : SequenceFlow} (member : flow ∈ graph.flows) :
    graph.flow? flow.id = some flow :=
  find?_key_of_mem (List.nodup_append.1 distinct).2.1 member

/-- Under distinct ids, no node has the id of a flow. -/
theorem id_ne_of_mem {node : Node} {flow : SequenceFlow} (nodeMember : node ∈ graph.nodes)
    (flowMember : flow ∈ graph.flows) : node.id ≠ flow.id :=
  (List.nodup_append.1 distinct).2.2 _ (List.mem_map_of_mem nodeMember) _
    (List.mem_map_of_mem flowMember)

/-- Under distinct ids, an id that names a flow names no node. -/
theorem node?_eq_none_of_flow {flow : SequenceFlow} (member : flow ∈ graph.flows) :
    graph.node? flow.id = none := by
  cases found : graph.node? flow.id with
  | none => rfl
  | some node =>
      exact absurd (id_of_node? found) (id_ne_of_mem distinct (mem_of_node? found) member)

/-- Under distinct ids, an id that names a node names no flow. -/
theorem flow?_eq_none_of_node {node : Node} (member : node ∈ graph.nodes) :
    graph.flow? node.id = none := by
  cases found : graph.flow? node.id with
  | none => rfl
  | some flow =>
      exact absurd (id_of_flow? found).symm (id_ne_of_mem distinct member (mem_of_flow? found))

/-- Under distinct ids, each element is found under its own id. -/
theorem element?_of_mem {element : Element} (member : element ∈ graph.elements) :
    graph.element? element.id = some element := by
  cases element with
  | node node =>
      simp only [Element.id, element?, node?_of_mem distinct (node_mem_elements.1 member)]
  | flow flow =>
      have present := flow_mem_elements.1 member
      simp only [Element.id, element?, node?_eq_none_of_flow distinct present,
        flow?_of_mem distinct present, Option.map_some]

/-- Under distinct ids, elements with the same id are the same. -/
theorem eq_of_id_eq {first second : Element} (firstMember : first ∈ graph.elements)
    (secondMember : second ∈ graph.elements) (same : first.id = second.id) : first = second := by
  have found := element?_of_mem distinct firstMember
  rw [same, element?_of_mem distinct secondMember] at found
  exact (Option.some.inj found).symm

end Distinct

/-- What is found under an id is an element with that id. -/
theorem mem_of_element? {graph : Graph} {id : ElementId} {element : Element}
    (found : graph.element? id = some element) : element ∈ graph.elements ∧ element.id = id := by
  unfold element? at found
  split at found
  next node present =>
    cases found
    exact ⟨node_mem_elements.2 (mem_of_node? present), id_of_node? present⟩
  next =>
    obtain ⟨flow, present, rfl⟩ := Option.map_eq_some_iff.1 found
    exact ⟨flow_mem_elements.2 (mem_of_flow? present), id_of_flow? present⟩

/-- A node that is found among the elements is found among the nodes. -/
theorem node?_of_element? {graph : Graph} {id : ElementId} {node : Node}
    (found : graph.element? id = some (.node node)) : graph.node? id = some node := by
  unfold element? at found
  split at found
  next present =>
    cases found
    exact present
  next =>
    obtain ⟨flow, _, isNode⟩ := Option.map_eq_some_iff.1 found
    cases isNode

/-! ## Changing and adding nodes -/

/-- A change of nodes that keeps ids is seen under each id. -/
theorem node?_map (graph : Graph) {change : Node → Node}
    (keeps : ∀ node, (change node).id = node.id) (id : ElementId) :
    ({ graph with nodes := graph.nodes.map change } : Graph).node? id =
      (graph.node? id).map change := by
  simp only [node?, List.find?_map]
  congr 2
  funext node
  simp only [Function.comp_apply, keeps]

/-- An added node is found under its id, provided the id was free. -/
theorem node?_append {graph : Graph} {node : Node} (free : graph.node? node.id = none)
    (id : ElementId) :
    ({ graph with nodes := graph.nodes ++ [node] } : Graph).node? id =
      if id = node.id then some node else graph.node? id := by
  by_cases same : id = node.id
  · subst same
    have absent : graph.nodes.find? (fun other => other.id = node.id) = none := free
    simp [node?, List.find?_append, absent]
  · have differs : node.id ≠ id := fun equal => same equal.symm
    simp [node?, List.find?_append, same, differs]

/-- An added flow is found under its id, provided the id was free. -/
theorem flow?_append {graph : Graph} {flow : SequenceFlow} (free : graph.flow? flow.id = none)
    (id : ElementId) :
    ({ graph with flows := graph.flows ++ [flow] } : Graph).flow? id =
      if id = flow.id then some flow else graph.flow? id := by
  by_cases same : id = flow.id
  · subst same
    have absent : graph.flows.find? (fun other => other.id = flow.id) = none := free
    simp [flow?, List.find?_append, absent]
  · have differs : flow.id ≠ id := fun equal => same equal.symm
    simp [flow?, List.find?_append, same, differs]

end BusinessProcess.Graph
