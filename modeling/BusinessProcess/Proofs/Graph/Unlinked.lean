import BusinessProcess.Graph.Walk
import BusinessProcess.Proofs.Graph.Face

/-!
# Processes without references to drawn flows

A flow may be drawn with or without the references of its two ends to it. What is left of a process
without such references does not tell the difference. Look-ups, the ways up and the walk go by
containment, so in what is left they find the same elements.
-/

namespace BusinessProcess.Graph

/-- Whether a flow of the given id is drawn and enters the node. -/
def enters (graph : Graph) (flow node : ElementId) : Bool :=
  (graph.flow? flow).any fun drawn => drawn.target = node

/-- Whether a flow of the given id is drawn and leaves the node. -/
def leaves (graph : Graph) (flow node : ElementId) : Bool :=
  (graph.flow? flow).any fun drawn => drawn.source = node

theorem enters_iff {graph : Graph} {flow node : ElementId} : graph.enters flow node = true ↔
    ∃ drawn, graph.flow? flow = some drawn ∧ drawn.target = node := by
  simp [enters, Option.any_eq_true]

theorem leaves_iff {graph : Graph} {flow node : ElementId} : graph.leaves flow node = true ↔
    ∃ drawn, graph.flow? flow = some drawn ∧ drawn.source = node := by
  simp [leaves, Option.any_eq_true]

/-- The node without references to flows that are drawn as it refers to them. -/
def bare (graph : Graph) (node : Node) : Node :=
  { node with
    incoming := node.incoming.filter fun flow => !graph.enters flow node.id
    outgoing := node.outgoing.filter fun flow => !graph.leaves flow node.id }

/-- The process without references to flows that are drawn as they are referred to. -/
def unlinked (graph : Graph) : Graph :=
  { graph with nodes := graph.nodes.map graph.bare }

/-- Two processes are drawn alike if they differ in references to drawn flows at most. -/
def DrawnAlike (graph other : Graph) : Prop :=
  graph.unlinked = other.unlinked

/-! ## Bare nodes -/

section Bare

variable (graph : Graph) (node : Node)

@[simp] theorem id_bare : (graph.bare node).id = node.id := rfl

@[simp] theorem kind_bare : (graph.bare node).kind = node.kind := rfl

@[simp] theorem parent_bare : (graph.bare node).parent = node.parent := rfl

@[simp] theorem children_bare : (graph.bare node).children = node.children := rfl

@[simp] theorem attributes_bare : (graph.bare node).attributes = node.attributes := rfl

/-- Where more is drawn, more references are left out. -/
theorem bare_bare_of_imp {graph later : Graph}
    (enters : ∀ flow id, graph.enters flow id = true → later.enters flow id = true)
    (leaves : ∀ flow id, graph.leaves flow id = true → later.leaves flow id = true) (node : Node) :
    later.bare (graph.bare node) = later.bare node := by
  have absorbed : ∀ {first second : Bool}, (first = true → second = true) →
      (!second && !first) = !second := by
    decide
  simp only [bare, List.filter_filter, absorbed (enters _ node.id), absorbed (leaves _ node.id)]

@[simp] theorem bare_bare : graph.bare (graph.bare node) = graph.bare node :=
  bare_bare_of_imp (fun _ _ entered => entered) (fun _ _ left => left) node

end Bare

/-! ## Look-ups -/

section Look

variable (graph : Graph)

@[simp] theorem root_unlinked : graph.unlinked.root = graph.root := rfl

@[simp] theorem flows_unlinked : graph.unlinked.flows = graph.flows := rfl

@[simp] theorem flow?_unlinked (id : ElementId) : graph.unlinked.flow? id = graph.flow? id := rfl

@[simp] theorem bare_unlinked (node : Node) : graph.unlinked.bare node = graph.bare node := rfl

@[simp] theorem unlinked_unlinked : graph.unlinked.unlinked = graph.unlinked := by
  refine Graph.ext rfl ?_ rfl
  show (graph.nodes.map graph.bare).map graph.bare = graph.nodes.map graph.bare
  rw [List.map_map]
  exact List.map_congr_left fun node _ => bare_bare graph node

@[simp] theorem node?_unlinked (id : ElementId) :
    graph.unlinked.node? id = (graph.node? id).map graph.bare :=
  node?_map graph graph.id_bare id

@[simp] theorem element?_unlinked (id : ElementId) :
    graph.unlinked.element? id = (graph.element? id).map (Element.mapNode graph.bare) := by
  rw [element?, element?, node?_unlinked, flow?_unlinked]
  cases graph.node? id with
  | some node => rfl
  | none => cases graph.flow? id <;> rfl

@[simp] theorem contains_unlinked (id : ElementId) :
    graph.unlinked.contains id = graph.contains id := by
  rw [contains, contains, node?_unlinked, flow?_unlinked, Option.isSome_map]

theorem children_unlinked (id : ElementId) :
    graph.unlinked.children id = (graph.children id).map (Element.mapNode graph.bare) := by
  rw [children, children, node?_unlinked]
  cases graph.node? id with
  | none => rfl
  | some node =>
      simp only [Option.map_some, children_bare, List.map_filterMap, element?_unlinked]

@[simp] theorem childNodes_unlinked (id : ElementId) :
    graph.unlinked.childNodes id = (graph.childNodes id).map graph.bare := by
  rw [childNodes, childNodes, children_unlinked, List.filterMap_map, List.map_filterMap]
  refine List.filterMap_congr fun element _ => ?_
  cases element <;> rfl

theorem containersFrom_unlinked (height : Nat) (parent : Option ElementId) :
    graph.unlinked.containersFrom height parent =
      (graph.containersFrom height parent).map graph.bare := by
  induction height generalizing parent with
  | zero => rfl
  | succ height inductionHypothesis =>
      cases parent with
      | none => rfl
      | some id =>
          rw [containersFrom, containersFrom, node?_unlinked]
          cases graph.node? id with
          | none => rfl
          | some node =>
              simp only [Option.map_some, parent_bare, inductionHypothesis, List.map_cons]

@[simp] theorem ancestors_unlinked (id : ElementId) :
    graph.unlinked.ancestors id = (graph.ancestors id).map graph.bare := by
  have parents : ∀ element : Element, (element.mapNode graph.bare).parent = element.parent := by
    intro element
    cases element <;> rfl
  have count : graph.unlinked.nodes.length = graph.nodes.length := List.length_map _
  rw [ancestors, ancestors, element?_unlinked]
  cases graph.element? id with
  | none => rfl
  | some element => simp only [Option.map_some, parents, count, containersFrom_unlinked]

theorem contents_unlinked (element : Element) :
    graph.unlinked.contents (element.mapNode graph.bare) =
      (graph.contents element).map (Element.mapNode graph.bare) := by
  cases element with
  | flow flow => rfl
  | node node =>
      simp only [Element.mapNode, contents, kind_bare, id_bare, children_unlinked]
      split <;> rfl

theorem meet_unlinked (steps : Nat) (pending : List Element) :
    graph.unlinked.meet steps (pending.map (Element.mapNode graph.bare)) =
      (graph.meet steps pending).map (List.map (Element.mapNode graph.bare)) := by
  induction steps generalizing pending with
  | zero => cases pending <;> rfl
  | succ steps inductionHypothesis =>
      cases pending with
      | nil => rfl
      | cons element rest =>
          simp only [List.map_cons, meet, contents_unlinked, ← List.map_append,
            inductionHypothesis, Option.map_map]
          rfl

/-- The walk meets the same elements in the same order. -/
theorem walk_unlinked : graph.unlinked.walk = graph.walk.map (Element.mapNode graph.bare) := by
  have count : graph.unlinked.nodes.length = graph.nodes.length := List.length_map _
  rw [walk, walk, root_unlinked, node?_unlinked]
  cases graph.node? graph.root with
  | none => rfl
  | some root =>
      simp only [Option.map_some, count, flows_unlinked]
      have met := graph.meet_unlinked (graph.nodes.length + graph.flows.length) [.node root]
      rw [List.map_singleton, Element.mapNode] at met
      rw [met]
      cases graph.meet (graph.nodes.length + graph.flows.length) [.node root] <;> rfl

end Look

end BusinessProcess.Graph
