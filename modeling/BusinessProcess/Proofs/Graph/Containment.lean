import BusinessProcess.Proofs.Graph.Removal
import Mathlib.Logic.Relation
import Mathlib.Data.List.Perm.Subperm

/-!
# Containment

In a well-formed process the containers form a tree below the root. Every way up therefore ends
at the root, no container is met twice on it, and both bounds by the number of nodes, the one on
the height of a way up and the one on the depth of a subtree, are never felt.
-/

namespace BusinessProcess.Graph

/-- The node `inner` lies `depth` levels below `outer`. -/
inductive Within (graph : Graph) (outer : ElementId) : Nat → ElementId → Prop where
  | here : Within graph outer 0 outer
  | inside {depth : Nat} {container : ElementId} {node : Node}
      (outside : Within graph outer depth container) (member : node ∈ graph.nodes)
      (parent : node.parent = some container) : Within graph outer (depth + 1) node.id

/-- What holds of a process however it was built and changed. -/
structure WellFormed (graph : Graph) : Prop where
  /-- No id is used twice, by nodes and flows together. -/
  distinct : graph.ids.Nodup
  /-- A flow starts and ends at nodes of the process. -/
  joined : ∀ flow ∈ graph.flows, (∃ node ∈ graph.nodes, node.id = flow.source) ∧
    ∃ node ∈ graph.nodes, node.id = flow.target
  /-- The root is a process that nothing holds. -/
  rooted : ∃ node ∈ graph.nodes,
    node.id = graph.root ∧ node.kind = .process ∧ node.parent = none
  /-- Every other element is listed once by the container that it names as its parent. -/
  held : ∀ element ∈ graph.elements, element.id ≠ graph.root → ∃ container ∈ graph.nodes,
    element.parent = some container.id ∧ container.kind.isContainer = true ∧
      container.children.count element.id = 1
  /-- What a node lists are elements that name it as their parent. -/
  listed : ∀ container ∈ graph.nodes, ∀ child ∈ container.children,
    ∃ element ∈ graph.elements, element.id = child ∧ element.parent = some container.id
  /-- Every node lies below the root. -/
  grounded : ∀ node ∈ graph.nodes, ∃ depth, graph.Within graph.root depth node.id

theorem WellFormed.tidy {graph : Graph} (wellFormed : graph.WellFormed) : graph.Tidy :=
  ⟨wellFormed.distinct, wellFormed.listed⟩

namespace Within

variable {graph : Graph} {outer middle inner : ElementId} {depth further : Nat}

/-- Ways down that meet add up. -/
theorem trans (first : graph.Within outer depth middle)
    (second : graph.Within middle further inner) :
    graph.Within outer (depth + further) inner := by
  induction second with
  | here => exact first
  | inside _ member parent inductionHypothesis => exact .inside inductionHypothesis member parent

/-- A way down is empty or ends with a step into a node. -/
theorem invert (within : graph.Within outer depth inner) :
    (depth = 0 ∧ inner = outer) ∨ ∃ further container, ∃ node ∈ graph.nodes,
      depth = further + 1 ∧ node.id = inner ∧ node.parent = some container ∧
        graph.Within outer further container := by
  cases within with
  | here => exact .inl ⟨rfl, rfl⟩
  | inside outside member parent => exact .inr ⟨_, _, _, member, rfl, rfl, parent, outside⟩

/-- A way down that is not empty starts with a step out of the outer container. -/
theorem succ_iff : graph.Within outer (depth + 1) inner ↔
    ∃ child ∈ graph.nodes, child.parent = some outer ∧ graph.Within child.id depth inner := by
  constructor
  · intro within
    induction depth generalizing inner with
    | zero =>
        cases within with
        | inside outside member parent =>
            cases outside with
            | here => exact ⟨_, member, parent, .here⟩
    | succ depth inductionHypothesis =>
        cases within with
        | inside outside member parent =>
            obtain ⟨child, childMember, childParent, rest⟩ := inductionHypothesis outside
            exact ⟨child, childMember, childParent, .inside rest member parent⟩
  · rintro ⟨child, member, parent, rest⟩
    rw [Nat.add_comm]
    exact trans (.inside .here member parent) rest

end Within

/-- The given containers are all that is met on the way up from a parent. -/
inductive Climb (graph : Graph) : Option ElementId → List Node → Prop where
  | top : Climb graph none []
  | up {id : ElementId} {container : Node} {above : List Node}
      (found : graph.node? id = some container) (rest : Climb graph container.parent above) :
      Climb graph (some id) (container :: above)

/-- A way up that is short enough is found in full. -/
theorem Climb.containersFrom_eq {graph : Graph} {parent : Option ElementId}
    {containers : List Node} (climb : graph.Climb parent containers) {height : Nat}
    (high : containers.length ≤ height) : graph.containersFrom height parent = containers := by
  induction climb generalizing height with
  | top => cases height <;> rfl
  | up found _ inductionHypothesis =>
      cases height with
      | zero => simp at high
      | succ height =>
          have highEnough := Nat.le_of_succ_le_succ high
          simp only [containersFrom, found, inductionHypothesis highEnough]

/-- There is one way up from a parent. -/
theorem Climb.unique {graph : Graph} {parent : Option ElementId} {first second : List Node}
    (climb : graph.Climb parent first) (other : graph.Climb parent second) : first = second := by
  induction climb generalizing second with
  | top =>
      cases other
      rfl
  | up found _ inductionHypothesis =>
      cases other with
      | up again rest =>
          rw [found] at again
          cases again
          rw [inductionHypothesis rest]

/-- The given containers are those around an element: all that is met on the way up from it, each
once, up to the root. -/
structure Surrounds (graph : Graph) (element : Element) (containers : List Node) : Prop where
  complete : graph.Climb element.parent containers
  different : (containers.map Node.id).Nodup
  outside : element.id ∉ containers.map Node.id
  holders : ∀ container ∈ containers,
    container ∈ graph.nodes ∧ container.kind.isContainer = true
  grounded : element.id ≠ graph.root → containers.getLast?.map Node.id = some graph.root

/-- An element with the id `inner` names `outer` as its parent. -/
def Encloses (graph : Graph) (outer inner : ElementId) : Prop :=
  ∃ element ∈ graph.elements, element.id = inner ∧ element.parent = some outer

namespace WellFormed

variable {graph : Graph} (wellFormed : graph.WellFormed)
include wellFormed

/-- Nodes with the same id are the same. -/
theorem node_eq {first second : Node} (firstMember : first ∈ graph.nodes)
    (secondMember : second ∈ graph.nodes) (same : first.id = second.id) : first = second :=
  Element.node.inj (eq_of_id_eq wellFormed.distinct (node_mem_elements.2 firstMember)
    (node_mem_elements.2 secondMember) same)

/-- Nothing holds the root. -/
theorem parent_root {node : Node} (member : node ∈ graph.nodes) (isRoot : node.id = graph.root) :
    node.parent = none := by
  obtain ⟨root, rootMember, rootId, _, rootParent⟩ := wellFormed.rooted
  rw [wellFormed.node_eq member rootMember (isRoot.trans rootId.symm)]
  exact rootParent

/-- A node that something holds is not the root. -/
theorem id_ne_root {node : Node} {container : ElementId} (member : node ∈ graph.nodes)
    (parent : node.parent = some container) : node.id ≠ graph.root := by
  intro isRoot
  rw [wellFormed.parent_root member isRoot] at parent
  cases parent

/-- No flow has the id of the root. -/
theorem flow_id_ne_root {flow : SequenceFlow} (member : flow ∈ graph.flows) :
    flow.id ≠ graph.root := by
  obtain ⟨root, rootMember, rootId, _⟩ := wellFormed.rooted
  intro same
  exact id_ne_of_mem wellFormed.distinct rootMember member (rootId.trans same.symm)

/-- The way down to a node leads through the container that it names. -/
theorem outward {node : Node} {container : ElementId} {depth : Nat} (member : node ∈ graph.nodes)
    (parent : node.parent = some container) (within : graph.Within graph.root depth node.id) :
    ∃ further, depth = further + 1 ∧ graph.Within graph.root further container := by
  rcases within.invert with ⟨_, isRoot⟩ | ⟨further, other, held, heldMember, rfl, same, named, rest⟩
  · exact absurd isRoot (wellFormed.id_ne_root member parent)
  · rw [wellFormed.node_eq heldMember member same, parent] at named
    cases named
    exact ⟨further, rfl, rest⟩

/-- A node has one depth. -/
theorem depth_unique {first second : Nat} {id : ElementId}
    (firstWay : graph.Within graph.root first id)
    (secondWay : graph.Within graph.root second id) : first = second := by
  induction firstWay generalizing second with
  | here =>
      rcases secondWay.invert with ⟨rfl, _⟩ | ⟨_, _, node, member, _, isRoot, parent, _⟩
      · rfl
      · exact absurd isRoot (wellFormed.id_ne_root member parent)
  | inside _ member parent inductionHypothesis =>
      obtain ⟨further, rfl, rest⟩ := wellFormed.outward member parent secondWay
      rw [inductionHypothesis rest]

/-! ## The containers around an element -/

/-- The way up from a node of depth `depth` meets `depth + 1` containers, all different, and the
root last. -/
private theorem exists_climb {depth : Nat} {id : ElementId}
    (within : graph.Within graph.root depth id) :
    ∃ containers, graph.Climb (some id) containers ∧ containers.length = depth + 1 ∧
      containers.Nodup ∧ containers.getLast?.map Node.id = some graph.root ∧
      ∀ container ∈ containers, container ∈ graph.nodes ∧
        ∃ level ≤ depth, graph.Within graph.root level container.id := by
  induction within with
  | here =>
      obtain ⟨root, member, rootId, _, parent⟩ := wellFormed.rooted
      have found := node?_of_mem wellFormed.distinct member
      rw [rootId] at found
      refine ⟨[root], .up found (parent ▸ .top), rfl, List.nodup_singleton _, by simp [rootId], ?_⟩
      intro container only
      rw [List.mem_singleton.1 only]
      exact ⟨member, 0, Nat.le_refl 0, rootId ▸ .here⟩
  | @inside depth container node outside member parent inductionHypothesis =>
      obtain ⟨above, climb, length, nodup, last, low⟩ := inductionHypothesis
      have deep : graph.Within graph.root (depth + 1) node.id := .inside outside member parent
      have fresh : node ∉ above := by
        intro again
        obtain ⟨_, level, bound, within⟩ := low node again
        have same := wellFormed.depth_unique within deep
        omega
      refine ⟨node :: above, .up (node?_of_mem wellFormed.distinct member) (parent ▸ climb),
        by rw [List.length_cons, length], List.nodup_cons.2 ⟨fresh, nodup⟩, ?_, ?_⟩
      · have notEmpty : above ≠ [] := by
          intro empty
          simp [empty] at length
        rw [List.getLast?_cons_of_ne_nil notEmpty, last]
      · intro other met
        rcases List.mem_cons.1 met with rfl | isAbove
        · exact ⟨member, depth + 1, Nat.le_refl _, deep⟩
        · obtain ⟨present, level, bound, within⟩ := low other isAbove
          exact ⟨present, level, by omega, within⟩

/-- No node is as deep as there are nodes. -/
theorem depth_lt {depth : Nat} {id : ElementId} (within : graph.Within graph.root depth id) :
    depth < graph.nodes.length := by
  obtain ⟨containers, _, length, nodup, _, low⟩ := wellFormed.exists_climb within
  have fits := (List.subperm_of_subset nodup fun container met => (low container met).1).length_le
  omega

/-- An element that something holds is not the root. -/
theorem held_id_ne_root {element : Element} (member : element ∈ graph.elements)
    {container : ElementId} (parent : element.parent = some container) :
    element.id ≠ graph.root := by
  cases element with
  | node node => exact wellFormed.id_ne_root (node_mem_elements.1 member) parent
  | flow flow => exact wellFormed.flow_id_ne_root (flow_mem_elements.1 member)

/-- What a parent names is the id of a container of the process. -/
theorem parent_named {element : Element} (member : element ∈ graph.elements)
    {container : ElementId} (parent : element.parent = some container) :
    ∃ node ∈ graph.nodes, node.id = container ∧ node.kind.isContainer = true := by
  obtain ⟨node, present, named, isContainer, _⟩ :=
    wellFormed.held element member (wellFormed.held_id_ne_root member parent)
  rw [parent] at named
  exact ⟨node, present, (Option.some.inj named).symm, isContainer⟩

/-- An activity has a container. -/
theorem exists_parent {activity : Node} (member : activity ∈ graph.nodes)
    (isActivity : activity.kind.isActivity = true) :
    ∃ container, activity.parent = some container := by
  have notRoot : activity.id ≠ graph.root := by
    intro isRoot
    obtain ⟨root, rootMember, rootId, isProcess, _⟩ := wellFormed.rooted
    rw [wellFormed.node_eq member rootMember (isRoot.trans rootId.symm), isProcess] at isActivity
    cases isActivity
  obtain ⟨container, _, parent, _⟩ :=
    wellFormed.held (.node activity) (node_mem_elements.2 member) notRoot
  exact ⟨container.id, parent⟩

/-- Whatever is met on the way up from an element is a container. -/
private theorem isContainer_of_climb {parent : Option ElementId} {containers : List Node}
    (climb : graph.Climb parent containers)
    (names : ∀ id, parent = some id → ∃ element ∈ graph.elements, element.parent = some id) :
    ∀ container ∈ containers, container.kind.isContainer = true := by
  induction climb with
  | top => exact fun container met => absurd met List.not_mem_nil
  | @up id container above found rest inductionHypothesis =>
      intro other met
      rcases List.mem_cons.1 met with rfl | isAbove
      · obtain ⟨element, member, named⟩ := names id rfl
        obtain ⟨node, present, same, isContainer⟩ := wellFormed.parent_named member named
        rw [wellFormed.node_eq (mem_of_node? found) present
          ((id_of_node? found).trans same.symm)]
        exact isContainer
      · refine inductionHypothesis (fun outer named => ?_) other isAbove
        exact ⟨.node container, node_mem_elements.2 (mem_of_node? found), named⟩

/-- The ancestors of an element surround it. -/
theorem surrounds_ancestors {element : Element} (member : element ∈ graph.elements) :
    graph.Surrounds element (graph.ancestors element.id) := by
  have found : graph.ancestors element.id =
      graph.containersFrom graph.nodes.length element.parent := by
    simp only [ancestors, element?_of_mem wellFormed.distinct member]
  rw [found]
  cases parent : element.parent with
  | none =>
      have nothing : graph.containersFrom graph.nodes.length none = [] :=
        Climb.top.containersFrom_eq (Nat.zero_le _)
      rw [nothing]
      refine ⟨parent ▸ .top, List.nodup_nil, List.not_mem_nil, by simp, fun other => ?_⟩
      obtain ⟨container, _, named, _⟩ := wellFormed.held element member other
      rw [parent] at named
      cases named
  | some container =>
      obtain ⟨node, present, rfl, _⟩ := wellFormed.parent_named member parent
      obtain ⟨depth, within⟩ := wellFormed.grounded node present
      obtain ⟨containers, climb, length, nodup, last, low⟩ := wellFormed.exists_climb within
      have short : containers.length ≤ graph.nodes.length := by
        have bound := wellFormed.depth_lt within
        omega
      rw [climb.containersFrom_eq short]
      have different : (containers.map Node.id).Nodup :=
        nodup.map_on fun first firstMet second secondMet same =>
          wellFormed.node_eq (low first firstMet).1 (low second secondMet).1 same
      have holders := wellFormed.isContainer_of_climb climb fun id named =>
        ⟨element, member, parent.trans named⟩
      refine ⟨parent ▸ climb, different, ?_,
        fun other met => ⟨(low other met).1, holders other met⟩, fun _ => last⟩
      intro again
      obtain ⟨other, met, same⟩ := List.mem_map.1 again
      obtain ⟨otherPresent, level, bound, shallow⟩ := low other met
      cases element with
      | flow flow =>
          exact id_ne_of_mem wellFormed.distinct otherPresent (flow_mem_elements.1 member) same
      | node inner =>
          have deep : graph.Within graph.root (depth + 1) inner.id :=
            .inside within (node_mem_elements.1 member) parent
          have equal := wellFormed.depth_unique (same ▸ shallow) deep
          omega

/-- Only what lies below the root encloses anything. -/
private theorem grounded_of_encloses {outer inner : ElementId}
    (encloses : graph.Encloses outer inner) :
    ∃ level, graph.Within graph.root level outer := by
  obtain ⟨element, member, _, parent⟩ := encloses
  obtain ⟨node, present, rfl, _⟩ := wellFormed.parent_named member parent
  exact wellFormed.grounded node present

/-- The way down to what is enclosed leads through what encloses it. -/
private theorem outward_of_encloses {outer inner : ElementId} {depth : Nat}
    (encloses : graph.Encloses outer inner) (within : graph.Within graph.root depth inner) :
    ∃ further, depth = further + 1 ∧ graph.Within graph.root further outer := by
  obtain ⟨element, member, rfl, parent⟩ := encloses
  cases element with
  | node node => exact wellFormed.outward (node_mem_elements.1 member) parent within
  | flow flow =>
      have present := flow_mem_elements.1 member
      rcases within.invert with ⟨_, isRoot⟩ | ⟨_, _, node, nodeMember, _, same, _⟩
      · exact absurd isRoot (wellFormed.flow_id_ne_root present)
      · exact absurd same (id_ne_of_mem wellFormed.distinct nodeMember present)

/-- What is enclosed through any number of levels is deeper than what encloses it. -/
private theorem deeper_of_encloses {outer inner : ElementId}
    (encloses : Relation.TransGen graph.Encloses outer inner) :
    ∃ level, graph.Within graph.root level outer ∧
      ∀ depth, graph.Within graph.root depth inner → level < depth := by
  induction encloses with
  | single edge =>
      obtain ⟨level, within⟩ := wellFormed.grounded_of_encloses edge
      refine ⟨level, within, fun depth innerWithin => ?_⟩
      obtain ⟨further, rfl, rest⟩ := wellFormed.outward_of_encloses edge innerWithin
      rw [wellFormed.depth_unique within rest]
      exact Nat.lt_succ_self further
  | tail _ edge inductionHypothesis =>
      obtain ⟨level, within, below⟩ := inductionHypothesis
      refine ⟨level, within, fun depth innerWithin => ?_⟩
      obtain ⟨further, rfl, rest⟩ := wellFormed.outward_of_encloses edge innerWithin
      exact Nat.lt_succ_of_lt (below further rest)

/-- Nothing contains itself, however many levels lie between. -/
theorem acyclic (id : ElementId) : ¬ Relation.TransGen graph.Encloses id id := by
  intro cycle
  obtain ⟨level, within, below⟩ := wellFormed.deeper_of_encloses cycle
  exact Nat.lt_irrefl level (below level within)

/-! ## Subtrees -/

section Listed

variable {container : Node} (member : container ∈ graph.nodes)
include member

/-- A node lists exactly the elements that name it as their parent. -/
theorem mem_listed_iff {child : ElementId} : child ∈ container.children ↔
    ∃ element ∈ graph.elements, element.id = child ∧ element.parent = some container.id := by
  constructor
  · exact wellFormed.listed container member child
  · rintro ⟨element, held, rfl, parent⟩
    obtain ⟨holder, holderMember, named, _, once⟩ :=
      wellFormed.held element held (wellFormed.held_id_ne_root held parent)
    have same : holder.id = container.id := Option.some.inj (named.symm.trans parent)
    rw [← wellFormed.node_eq holderMember member same]
    exact List.count_pos_iff.1 (by rw [once]; exact Nat.one_pos)

/-- A node lists nothing twice. -/
theorem nodup_listed : container.children.Nodup := by
  rw [List.nodup_iff_count_le_one]
  intro child
  by_cases isListed : child ∈ container.children
  · obtain ⟨element, held, rfl, parent⟩ := wellFormed.listed container member child isListed
    obtain ⟨holder, holderMember, named, _, once⟩ :=
      wellFormed.held element held (wellFormed.held_id_ne_root held parent)
    have same : holder.id = container.id := Option.some.inj (named.symm.trans parent)
    rw [← wellFormed.node_eq holderMember member same]
    exact Nat.le_of_eq once
  · rw [List.count_eq_zero.2 isListed]
    exact Nat.zero_le 1

end Listed

/-- The children of a node are the elements that name it as their parent. -/
theorem mem_children {element : Element} {id : ElementId} :
    element ∈ graph.children id ↔ element ∈ graph.elements ∧ element.parent = some id := by
  constructor
  · intro isChild
    unfold children at isChild
    split at isChild
    next container found =>
      obtain ⟨listed, isListed, present⟩ := List.mem_filterMap.1 isChild
      obtain ⟨held, heldMember, rfl, parent⟩ :=
        wellFormed.listed container (mem_of_node? found) listed isListed
      rw [element?_of_mem wellFormed.distinct heldMember] at present
      cases present
      rw [id_of_node? found] at parent
      exact ⟨heldMember, parent⟩
    next => cases isChild
  · rintro ⟨member, parent⟩
    obtain ⟨container, containerMember, rfl, _⟩ := wellFormed.parent_named member parent
    have isListed : element.id ∈ container.children :=
      (wellFormed.mem_listed_iff containerMember).2 ⟨element, member, rfl, parent⟩
    rw [children, node?_of_mem wellFormed.distinct containerMember]
    exact List.mem_filterMap.2 ⟨element.id, isListed, element?_of_mem wellFormed.distinct member⟩

/-- No element is twice among the children of a node. -/
theorem nodup_children (id : ElementId) : (graph.children id).Nodup := by
  unfold children
  split
  next container found =>
    refine List.Nodup.filterMap ?_ (wellFormed.nodup_listed (mem_of_node? found))
    intro first second element firstFound secondFound
    rw [← (mem_of_element? firstFound).2, ← (mem_of_element? secondFound).2]
  next => exact List.nodup_nil

/-- The child nodes of a node are the nodes that name it as their parent. -/
theorem mem_childNodes {child : Node} {id : ElementId} :
    child ∈ graph.childNodes id ↔ child ∈ graph.nodes ∧ child.parent = some id := by
  constructor
  · intro member
    obtain ⟨element, isChild, isNode⟩ := List.mem_filterMap.1 member
    cases element with
    | flow flow => cases isNode
    | node node =>
        cases isNode
        obtain ⟨held, parent⟩ := wellFormed.mem_children.1 isChild
        exact ⟨node_mem_elements.1 held, parent⟩
  · rintro ⟨member, parent⟩
    have isChild : Element.node child ∈ graph.children id :=
      wellFormed.mem_children.2 ⟨node_mem_elements.2 member, parent⟩
    exact List.mem_filterMap.2 ⟨.node child, isChild, rfl⟩

/-- The child nodes of a node are the nodes that name it as their parent, each once. -/
theorem childNodes_perm (id : ElementId) :
    (graph.childNodes id).Perm (graph.nodes.filter (·.parent = some id)) := by
  have once : (graph.childNodes id).Nodup := by
    refine List.Nodup.filterMap ?_ (wellFormed.nodup_children id)
    intro first second node isFirst isSecond
    cases first with
    | flow _ => cases isFirst
    | node _ =>
        cases second with
        | flow _ => cases isSecond
        | node _ =>
            cases isFirst
            cases isSecond
            rfl
  rw [List.perm_ext_iff_of_nodup once ((nodup_nodes wellFormed.distinct).filter _)]
  intro child
  rw [wellFormed.mem_childNodes, List.mem_filter, decide_eq_true_iff]

/-- The nodes found below a node down to some depth are those that lie within it. -/
theorem mem_nodesBelow {levels : Nat} {outer inner : ElementId} :
    inner ∈ graph.nodesBelow levels outer ↔
      ∃ depth ≤ levels, graph.Within outer depth inner := by
  induction levels generalizing outer with
  | zero =>
      constructor
      · intro member
        rw [List.mem_singleton.1 member]
        exact ⟨0, Nat.le_refl 0, .here⟩
      · rintro ⟨depth, bound, within⟩
        obtain rfl := Nat.le_zero.1 bound
        cases within
        exact List.mem_singleton_self _
  | succ levels inductionHypothesis =>
      rw [nodesBelow, List.mem_cons, List.mem_flatMap]
      constructor
      · rintro (rfl | ⟨child, isChild, below⟩)
        · exact ⟨0, Nat.zero_le _, .here⟩
        · obtain ⟨member, parent⟩ := wellFormed.mem_childNodes.1 isChild
          obtain ⟨depth, bound, within⟩ := inductionHypothesis.1 below
          exact ⟨depth + 1, by omega, Within.succ_iff.2 ⟨child, member, parent, within⟩⟩
      · rintro ⟨depth, bound, within⟩
        cases depth with
        | zero =>
            cases within
            exact .inl rfl
        | succ depth =>
            obtain ⟨child, member, parent, rest⟩ := Within.succ_iff.1 within
            exact .inr ⟨child, wellFormed.mem_childNodes.2 ⟨member, parent⟩,
              inductionHypothesis.2 ⟨depth, by omega, rest⟩⟩

/-- The subtree of a node consists of all that lies within it. -/
theorem mem_subtree {node : Node} (member : node ∈ graph.nodes) {inner : ElementId} :
    inner ∈ graph.subtree node.id ↔ ∃ depth, graph.Within node.id depth inner := by
  rw [subtree, wellFormed.mem_nodesBelow]
  constructor
  · rintro ⟨depth, _, within⟩
    exact ⟨depth, within⟩
  · rintro ⟨depth, within⟩
    obtain ⟨level, above⟩ := wellFormed.grounded node member
    have bound := wellFormed.depth_lt (above.trans within)
    exact ⟨depth, by omega, within⟩

end WellFormed

end BusinessProcess.Graph
