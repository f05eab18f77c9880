import BusinessProcess.Graph.Walk
import BusinessProcess.Proofs.Graph.Containment

/-!
# The order of the walk

`Preorder` describes the walk by recursion over containment, without a bound on its steps and
without a list of elements still to be met. In a well-formed process the two descriptions agree, and
the walk meets every element once: containment is a tree, so each element lies beneath the root on
exactly one level, and two elements of the same level have nothing beneath them in common.
-/

namespace BusinessProcess.Graph

/-! ## What walks meet -/

/-- What lies directly inside an element is an element. -/
theorem mem_elements_of_contents {graph : Graph} {outer element : Element}
    (inside : element ∈ graph.contents outer) : element ∈ graph.elements := by
  cases outer with
  | flow flow => cases inside
  | node node =>
      simp only [contents] at inside
      split at inside
      next =>
        unfold children at inside
        split at inside
        next =>
          obtain ⟨_, _, found⟩ := List.mem_filterMap.1 inside
          exact (mem_of_element? found).1
        next => cases inside
      next => cases inside

/-- From elements on, elements are met. -/
theorem mem_elements_of_meet {graph : Graph} {steps : Nat} {pending met : List Element}
    (finished : graph.meet steps pending = some met)
    (known : ∀ element ∈ pending, element ∈ graph.elements) :
    ∀ element ∈ met, element ∈ graph.elements := by
  induction steps generalizing pending met with
  | zero =>
      cases pending with
      | nil =>
          cases finished
          exact known
      | cons head rest => cases finished
  | succ steps inductionHypothesis =>
      cases pending with
      | nil =>
          cases finished
          exact known
      | cons head rest =>
          obtain ⟨others, metOthers, rfl⟩ := Option.map_eq_some_iff.1 finished
          obtain ⟨headKnown, restKnown⟩ := List.forall_mem_cons.1 known
          refine List.forall_mem_cons.2
            ⟨headKnown, inductionHypothesis metOthers fun element isPending => ?_⟩
          rcases List.mem_append.1 isPending with inside | behind
          · exact mem_elements_of_contents inside
          · exact restKnown element behind

/-- The walk meets nothing but elements. -/
theorem mem_elements_of_walk {graph : Graph} {element : Element} (met : element ∈ graph.walk) :
    element ∈ graph.elements := by
  unfold walk at met
  split at met
  next root found =>
    cases finished : graph.meet (graph.nodes.length + graph.flows.length) [.node root] with
    | none =>
        rw [finished] at met
        cases met
    | some elements =>
        rw [finished] at met
        refine mem_elements_of_meet finished (fun other only => ?_) element met
        rw [List.mem_singleton.1 only]
        exact node_mem_elements.2 (mem_of_node? found)
  next => cases met

/-! ## The order in which they meet it -/

/-- The pending elements are met in their order, each before all that lies inside it, and this
before the next pending one. -/
inductive Preorder (graph : Graph) : (pending met : List Element) → Prop where
  | done : Preorder graph [] []
  | next {element : Element} {pending inside behind : List Element}
      (within : Preorder graph (graph.contents element) inside)
      (rest : Preorder graph pending behind) :
      Preorder graph (element :: pending) (element :: inside ++ behind)

namespace Preorder

variable {graph : Graph} {pending met : List Element}

/-- The order is determined by what is pending. -/
theorem unique (preorder : graph.Preorder pending met) {other : List Element}
    (again : graph.Preorder pending other) : met = other := by
  induction preorder generalizing other with
  | done =>
      cases again
      rfl
  | next _ _ withinHypothesis restHypothesis =>
      cases again with
      | next within rest => rw [withinHypothesis within, restHypothesis rest]

/-- An element and what follows it are met one after the other. -/
theorem cons {element : Element} {first behind : List Element}
    (head : graph.Preorder [element] first) (rest : graph.Preorder pending behind) :
    graph.Preorder (element :: pending) (first ++ behind) := by
  cases head with
  | next within nothing =>
      cases nothing
      rw [List.append_nil]
      exact .next within rest

/-- Everything pending is met. -/
theorem pending_subset (preorder : graph.Preorder pending met) : pending ⊆ met := by
  induction preorder with
  | done => exact List.Subset.refl []
  | next _ _ _ restHypothesis =>
      intro other isPending
      rcases List.mem_cons.1 isPending with rfl | later
      · exact List.mem_cons_self
      · exact List.mem_append_right _ (restHypothesis later)

/-- With an element everything inside it is met. -/
theorem contents_subset (preorder : graph.Preorder pending met) {element : Element}
    (isMet : element ∈ met) : graph.contents element ⊆ met := by
  induction preorder with
  | done => cases isMet
  | @next head pending inside behind within _ withinHypothesis restHypothesis =>
      rcases List.mem_append.1 isMet with first | later
      · refine List.Subset.trans ?_ (List.subset_append_left _ behind)
        rcases List.mem_cons.1 first with rfl | isInside
        · exact List.Subset.trans within.pending_subset (List.subset_cons_self _ _)
        · exact List.Subset.trans (withinHypothesis isInside) (List.subset_cons_self _ _)
      · exact List.Subset.trans (restHypothesis later) (List.subset_append_right _ behind)

/-- The walk from the pending elements on meets them in this order, one in each step, and then what
else is pending. -/
theorem meet_append (preorder : graph.Preorder pending met) {steps : Nat}
    {others later : List Element} (finished : graph.meet steps others = some later) :
    graph.meet (met.length + steps) (pending ++ others) = some (met ++ later) := by
  induction preorder generalizing steps others later with
  | done => simpa using finished
  | @next element pending inside behind _ _ withinHypothesis restHypothesis =>
      have inner := withinHypothesis (restHypothesis finished)
      have count : (element :: inside ++ behind).length + steps =
          inside.length + (behind.length + steps) + 1 := by
        rw [List.length_append, List.length_cons]
        omega
      rw [count, List.cons_append, meet, inner]
      simp

end Preorder

/-! ## Elements beneath one another -/

/-- An element lies the given number of levels beneath `outer`. -/
inductive Beneath (graph : Graph) (outer : Element) : Nat → Element → Prop where
  | here : Beneath graph outer 0 outer
  | inside {level : Nat} {container element : Element}
      (outside : Beneath graph outer level container)
      (held : element ∈ graph.contents container) : Beneath graph outer (level + 1) element

namespace Beneath

variable {graph : Graph} {outer middle inner : Element} {level further : Nat}

/-- Levels add up. -/
theorem trans (first : graph.Beneath outer level middle)
    (second : graph.Beneath middle further inner) :
    graph.Beneath outer (level + further) inner := by
  induction second with
  | here => exact first
  | inside _ held inductionHypothesis => exact .inside inductionHypothesis held

end Beneath

/-- What is met lies beneath something pending. -/
theorem Preorder.exists_beneath {graph : Graph} {pending met : List Element}
    (preorder : graph.Preorder pending met) {element : Element} (isMet : element ∈ met) :
    ∃ outer ∈ pending, ∃ level, graph.Beneath outer level element := by
  induction preorder with
  | done => cases isMet
  | @next head pending inside behind _ _ withinHypothesis restHypothesis =>
      rcases List.mem_append.1 isMet with first | later
      · rcases List.mem_cons.1 first with rfl | isInside
        · exact ⟨element, List.mem_cons_self, 0, .here⟩
        · obtain ⟨outer, held, level, beneath⟩ := withinHypothesis isInside
          exact ⟨head, List.mem_cons_self, 1 + level, (Beneath.inside .here held).trans beneath⟩
      · obtain ⟨outer, isPending, level, beneath⟩ := restHypothesis later
        exact ⟨outer, List.mem_cons_of_mem head isPending, level, beneath⟩

/-- Everything beneath something pending is met. -/
theorem Preorder.mem_of_beneath {graph : Graph} {pending met : List Element}
    (preorder : graph.Preorder pending met) {outer element : Element} {level : Nat}
    (isPending : outer ∈ pending) (beneath : graph.Beneath outer level element) :
    element ∈ met := by
  induction beneath with
  | here => exact preorder.pending_subset isPending
  | inside _ held inductionHypothesis => exact preorder.contents_subset inductionHypothesis held

namespace WellFormed

variable {graph : Graph} (wellFormed : graph.WellFormed)
include wellFormed

/-- Inside an element are the elements that name it as their parent. -/
theorem mem_contents {outer element : Element} (member : outer ∈ graph.elements) :
    element ∈ graph.contents outer ↔ element ∈ graph.elements ∧ element.parent = some outer.id := by
  cases outer with
  | flow flow =>
      refine ⟨fun inside => absurd inside List.not_mem_nil, fun ⟨present, parent⟩ => ?_⟩
      obtain ⟨node, nodeMember, same, _⟩ := wellFormed.parent_named present parent
      exact absurd same (id_ne_of_mem wellFormed.distinct nodeMember (flow_mem_elements.1 member))
  | node outer =>
      simp only [contents]
      split
      next => exact wellFormed.mem_children
      next notContainer =>
        refine ⟨fun inside => absurd inside List.not_mem_nil, fun ⟨present, parent⟩ => ?_⟩
        obtain ⟨node, nodeMember, same, isContainer⟩ := wellFormed.parent_named present parent
        rw [wellFormed.node_eq nodeMember (node_mem_elements.1 member) same] at isContainer
        exact absurd isContainer notContainer

/-- No element is inside two. -/
theorem contents_disjoint {first second element : Element} (firstMember : first ∈ graph.elements)
    (secondMember : second ∈ graph.elements) (inFirst : element ∈ graph.contents first)
    (inSecond : element ∈ graph.contents second) : first = second := by
  obtain ⟨_, firstParent⟩ := (wellFormed.mem_contents firstMember).1 inFirst
  obtain ⟨_, secondParent⟩ := (wellFormed.mem_contents secondMember).1 inSecond
  rw [firstParent] at secondParent
  exact eq_of_id_eq wellFormed.distinct firstMember secondMember (Option.some.inj secondParent)

/-- No element is listed twice inside another one. -/
theorem nodup_contents (outer : Element) : (graph.contents outer).Nodup := by
  cases outer with
  | flow flow => exact List.nodup_nil
  | node outer =>
      simp only [contents]
      split
      next => exact wellFormed.nodup_children outer.id
      next => exact List.nodup_nil

/-- What lies beneath an element of the process is an element of the process. -/
theorem mem_of_beneath {outer element : Element} {level : Nat} (member : outer ∈ graph.elements)
    (beneath : graph.Beneath outer level element) : element ∈ graph.elements := by
  induction beneath with
  | here => exact member
  | inside _ held inductionHypothesis =>
      exact ((wellFormed.mem_contents inductionHypothesis).1 held).1

/-- Nothing but the element itself lies on the same level above another one. -/
theorem outer_unique {first second element : Element} {level : Nat}
    (firstMember : first ∈ graph.elements) (secondMember : second ∈ graph.elements)
    (firstWay : graph.Beneath first level element)
    (secondWay : graph.Beneath second level element) :
    first = second := by
  induction firstWay with
  | here =>
      cases secondWay
      rfl
  | @inside level container element outside held inductionHypothesis =>
      cases secondWay with
      | @inside _ other _ otherOutside otherHeld =>
          have same := wellFormed.contents_disjoint
            (wellFormed.mem_of_beneath firstMember outside)
            (wellFormed.mem_of_beneath secondMember otherOutside) held otherHeld
          exact inductionHypothesis (same ▸ otherOutside)

section Root

variable {root : Node} (isRoot : graph.node? graph.root = some root)
include isRoot

/-- Nothing has the root inside. -/
theorem root_not_mem_contents {outer : Element} (member : outer ∈ graph.elements) :
    Element.node root ∉ graph.contents outer := by
  intro inside
  have parent := ((wellFormed.mem_contents member).1 inside).2
  rw [show (Element.node root).parent = none from
    wellFormed.parent_root (mem_of_node? isRoot) (id_of_node? isRoot)] at parent
  cases parent

/-- Each element lies on one level beneath the root. -/
theorem level_unique {first second : Nat} {element : Element}
    (firstWay : graph.Beneath (.node root) first element)
    (secondWay : graph.Beneath (.node root) second element) : first = second := by
  have known : ∀ {level container}, graph.Beneath (.node root) level container →
      container ∈ graph.elements :=
    wellFormed.mem_of_beneath (node_mem_elements.2 (mem_of_node? isRoot))
  induction firstWay generalizing second with
  | here =>
      cases secondWay with
      | here => rfl
      | inside outside held =>
          exact absurd held (wellFormed.root_not_mem_contents isRoot (known outside))
  | inside outside held inductionHypothesis =>
      cases secondWay with
      | here => exact absurd held (wellFormed.root_not_mem_contents isRoot (known outside))
      | inside otherOutside otherHeld =>
          have same := wellFormed.contents_disjoint (known outside) (known otherOutside) held
            otherHeld
          rw [inductionHypothesis (same ▸ otherOutside)]

/-- A node is as deep as its level. -/
theorem within_of_beneath {level : Nat} {element : Element}
    (beneath : graph.Beneath (.node root) level element) {node : Node}
    (isNode : element = .node node) : graph.Within graph.root level node.id := by
  induction beneath generalizing node with
  | here =>
      cases isNode
      rw [id_of_node? isRoot]
      exact .here
  | @inside level container element outside held inductionHypothesis =>
      subst isNode
      have member := wellFormed.mem_of_beneath (node_mem_elements.2 (mem_of_node? isRoot)) outside
      obtain ⟨present, parent⟩ := (wellFormed.mem_contents member).1 held
      cases container with
      | flow flow => cases held
      | node container =>
          exact .inside (inductionHypothesis rfl) (node_mem_elements.1 present) parent

/-- Every element lies beneath the root. -/
theorem exists_beneath_root {element : Element} (member : element ∈ graph.elements) :
    ∃ level, graph.Beneath (.node root) level element := by
  have rootMember := node_mem_elements.2 (mem_of_node? isRoot)
  have nodes : ∀ {depth id}, graph.Within graph.root depth id → ∀ node ∈ graph.nodes, node.id = id →
      graph.Beneath (.node root) depth (.node node) := by
    intro depth id within
    induction within with
    | here =>
        intro node present same
        rw [wellFormed.node_eq present (mem_of_node? isRoot) (same.trans (id_of_node? isRoot).symm)]
        exact .here
    | @inside depth container inner outside innerMember parent inductionHypothesis =>
        intro node present same
        obtain rfl := wellFormed.node_eq present innerMember same
        obtain ⟨holder, holderMember, rfl, _⟩ :=
          wellFormed.parent_named (node_mem_elements.2 present) parent
        have above := inductionHypothesis holder holderMember rfl
        refine .inside above ((wellFormed.mem_contents ?_).2 ⟨node_mem_elements.2 present, parent⟩)
        exact node_mem_elements.2 holderMember
  by_cases isTop : element.id = graph.root
  · have same := eq_of_id_eq wellFormed.distinct member rootMember
      (isTop.trans (id_of_node? isRoot).symm)
    exact ⟨0, same ▸ .here⟩
  · obtain ⟨holder, holderMember, parent, _⟩ := wellFormed.held element member isTop
    obtain ⟨depth, within⟩ := wellFormed.grounded holder holderMember
    have above := nodes within holder holderMember rfl
    refine ⟨depth + 1, .inside above ((wellFormed.mem_contents ?_).2 ⟨member, parent⟩)⟩
    exact node_mem_elements.2 holderMember

/-- Elements of one level are met without repetition. -/
theorem nodup_of_preorder {pending met : List Element} (preorder : graph.Preorder pending met)
    (different : pending.Nodup) {level : Nat}
    (beneath : ∀ element ∈ pending, graph.Beneath (.node root) level element) : met.Nodup := by
  have rootMember := node_mem_elements.2 (mem_of_node? isRoot)
  induction preorder generalizing level with
  | done => exact List.nodup_nil
  | @next head pending inside behind within rest withinHypothesis restHypothesis =>
      have headBeneath := beneath head List.mem_cons_self
      have headMember := wellFormed.mem_of_beneath rootMember headBeneath
      obtain ⟨headNotPending, pendingDifferent⟩ := List.nodup_cons.1 different
      have pendingBeneath : ∀ element ∈ pending, graph.Beneath (.node root) level element :=
        fun element isPending => beneath element (List.mem_cons_of_mem head isPending)
      -- What is met with the head lies beneath it, the head itself on a level of its own.
      have underHead : ∀ element ∈ inside, ∃ below, graph.Beneath head (below + 1) element := by
        intro element isInside
        obtain ⟨outer, held, below, outerBeneath⟩ := within.exists_beneath isInside
        refine ⟨below, ?_⟩
        rw [Nat.add_comm below 1]
        exact (Beneath.inside .here held).trans outerBeneath
      have insideDifferent : inside.Nodup :=
        withinHypothesis (wellFormed.nodup_contents head) fun element held =>
          .inside headBeneath held
      have headFresh : head ∉ inside := by
        intro again
        obtain ⟨below, cycle⟩ := underHead head again
        have same := wellFormed.level_unique isRoot headBeneath (headBeneath.trans cycle)
        omega
      refine List.nodup_append.2
        ⟨List.nodup_cons.2 ⟨headFresh, insideDifferent⟩, restHypothesis pendingDifferent
          pendingBeneath, ?_⟩
      rintro element isFirst _ isLater rfl
      obtain ⟨below, beneathHead⟩ : ∃ below, graph.Beneath head below element := by
        rcases List.mem_cons.1 isFirst with rfl | isInside
        · exact ⟨0, .here⟩
        · obtain ⟨below, under⟩ := underHead element isInside
          exact ⟨below + 1, under⟩
      obtain ⟨outer, isPending, further, beneathOuter⟩ := rest.exists_beneath isLater
      have outerBeneath := pendingBeneath outer isPending
      have same := wellFormed.level_unique isRoot (headBeneath.trans beneathHead)
        (outerBeneath.trans beneathOuter)
      obtain rfl : below = further := by omega
      have isHead := wellFormed.outer_unique headMember
        (wellFormed.mem_of_beneath rootMember outerBeneath) beneathHead beneathOuter
      exact headNotPending (isHead ▸ isPending)

/-- From each element on there is an order of what lies beneath it. The recursion ends because no
node is as deep as there are nodes. -/
theorem exists_preorder (levels : Nat) {level : Nat} {element : Element}
    (beneath : graph.Beneath (.node root) level element)
    (enough : graph.nodes.length ≤ level + levels) : ∃ met, graph.Preorder [element] met := by
  induction levels generalizing level element with
  | zero =>
      cases element with
      | flow flow => exact ⟨_, .next .done .done⟩
      | node node =>
          have bound := wellFormed.depth_lt (wellFormed.within_of_beneath isRoot beneath rfl)
          omega
  | succ levels inductionHypothesis =>
      have each : ∀ pending : List Element, pending ⊆ graph.contents element →
          ∃ met, graph.Preorder pending met := by
        intro pending inside
        induction pending with
        | nil => exact ⟨[], .done⟩
        | cons head rest restHypothesis =>
            obtain ⟨headInside, restInside⟩ := List.cons_subset.1 inside
            obtain ⟨first, firstMet⟩ :=
              inductionHypothesis (.inside beneath headInside) (by omega)
            obtain ⟨behind, behindMet⟩ := restHypothesis restInside
            exact ⟨first ++ behind, firstMet.cons behindMet⟩
      obtain ⟨inside, within⟩ := each (graph.contents element) (List.Subset.refl _)
      exact ⟨_, .next within .done⟩

end Root

/-- Elements are different. -/
theorem nodup_elements : graph.elements.Nodup := by
  refine List.Nodup.of_map Element.id ?_
  rw [map_id_elements]
  exact wellFormed.distinct

/-- The walk starts at the root, goes in the order of containment, takes one step for each element
and meets every element once. -/
theorem exists_walk : ∃ root, graph.node? graph.root = some root ∧
    graph.Preorder [.node root] graph.walk ∧
    graph.meet (graph.nodes.length + graph.flows.length) [.node root] = some graph.walk ∧
    graph.walk.Perm graph.elements := by
  obtain ⟨root, member, rootId, _⟩ := wellFormed.rooted
  have isRoot : graph.node? graph.root = some root := by
    rw [← rootId]
    exact node?_of_mem wellFormed.distinct member
  obtain ⟨met, preorder⟩ := wellFormed.exists_preorder isRoot graph.nodes.length
    (.here : graph.Beneath (.node root) 0 (.node root)) (by omega)
  have different : met.Nodup :=
    wellFormed.nodup_of_preorder isRoot preorder (List.nodup_singleton _)
      fun element only => by
        rw [List.mem_singleton.1 only]
        exact Beneath.here
  have all : met.Perm graph.elements := by
    refine (List.perm_ext_iff_of_nodup different wellFormed.nodup_elements).2 fun element => ?_
    constructor
    · intro isMet
      obtain ⟨outer, only, level, beneath⟩ := preorder.exists_beneath isMet
      rw [List.mem_singleton.1 only] at beneath
      exact wellFormed.mem_of_beneath (node_mem_elements.2 member) beneath
    · intro present
      obtain ⟨level, beneath⟩ := wellFormed.exists_beneath_root isRoot present
      exact preorder.mem_of_beneath (List.mem_singleton_self _) beneath
  have steps : met.length = graph.nodes.length + graph.flows.length := by
    rw [all.length_eq, elements, List.length_append, List.length_map, List.length_map]
  have finished : graph.meet (graph.nodes.length + graph.flows.length) [.node root] = some met := by
    have whole := preorder.meet_append (show graph.meet 0 [] = some [] from rfl)
    rw [List.append_nil, List.append_nil, steps] at whole
    exact whole
  have walked : graph.walk = met := by
    simp only [walk, isRoot, finished, Option.getD_some]
  rw [walked]
  exact ⟨root, isRoot, preorder, finished, all⟩

/-- No element is met twice. -/
theorem nodup_walk_ids : (graph.walk.map Element.id).Nodup := by
  obtain ⟨_, _, _, _, all⟩ := wellFormed.exists_walk
  refine (all.map Element.id).nodup_iff.2 ?_
  rw [map_id_elements]
  exact wellFormed.distinct

end WellFormed

end BusinessProcess.Graph
