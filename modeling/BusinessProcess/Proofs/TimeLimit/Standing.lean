import BusinessProcess.Proofs.TimeLimit.Clash
import BusinessProcess.Proofs.TimeLimit.Fitting
import BusinessProcess.Proofs.TimeLimit.Independence

/-!
# Limits that stand on a process

A process in which limits of an activity were worked out consists of these limits and of the process
that they stand on, where the ids of their parts are free. Other elements of that process may bear
ids of parts of other limits, so only what can be removed by such an id is known not to be there.
What is said here holds of each step of a change that is not refused: a removal that spares the
activity takes from the process below and spares the limits on it, and what is installed comes on
top.
-/

namespace BusinessProcess.TimeLimit

open BusinessProcess.Graph

/-! ## What limits in place add to a process -/

section Equip

variable {delegate : String} {container activity : ElementId} {setting : Setting}
  {settings : List Setting} {graph : Graph}

theorem gists_equip : (equip delegate container activity setting graph).gists = graph.gists ++
    [{ boundaryEvent activity setting with parent := some container }.gist,
      { serviceTask activity setting.limit delegate with parent := some container }.gist] := by
  dsimp only [equip]
  rw [gists_updateNode _ _ fun node => node.gist_linkIncoming _,
    gists_updateNode _ _ fun node => node.gist_linkOutgoing _, gists_hold_flow, gists_hold_node,
    gists_hold_node, List.append_assoc]
  rfl

theorem gists_equipAll : (equipAll delegate container activity settings graph).gists =
    graph.gists ++ settings.flatMap fun setting =>
      [{ boundaryEvent activity setting with parent := some container }.gist,
        { serviceTask activity setting.limit delegate with parent := some container }.gist] := by
  induction settings generalizing graph with
  | nil => exact (List.append_nil _).symm
  | cons setting rest inductionHypothesis =>
      rw [equipAll_cons, inductionHypothesis, gists_equip, List.flatMap_cons, List.append_assoc]

theorem flows_equipAll : (equipAll delegate container activity settings graph).flows =
    graph.flows ++ settings.map fun setting =>
      { serviceFlow activity setting.limit with parent := some container } := by
  induction settings generalizing graph with
  | nil => exact (List.append_nil _).symm
  | cons setting rest inductionHypothesis =>
      rw [equipAll_cons, inductionHypothesis, List.map_cons, ← List.singleton_append,
        ← List.append_assoc]
      rfl

@[simp] theorem root_equipAll :
    (equipAll delegate container activity settings graph).root = graph.root := by
  induction settings generalizing graph with
  | nil => rfl
  | cons setting rest inductionHypothesis =>
      rw [equipAll_cons, inductionHypothesis]
      rfl

/-- The nodes below are there with all that a gist says. -/
theorem gists_subset_equipAll :
    graph.gists ⊆ (equipAll delegate container activity settings graph).gists := by
  rw [gists_equipAll]
  exact List.subset_append_left _ _

theorem flows_subset_equipAll :
    graph.flows ⊆ (equipAll delegate container activity settings graph).flows := by
  rw [flows_equipAll]
  exact List.subset_append_left _ _

/-- A node is one of those below, or a part of a limit in place, which lies in the container. -/
theorem node_of_equipAll {node : Node}
    (member : node ∈ (equipAll delegate container activity settings graph).nodes) :
    node.gist ∈ graph.gists ∨ ∃ setting ∈ settings, ∃ part : Part, part ≠ .flow ∧
      node.id = part.id setting.limit activity ∧ IsTimer node ∧ node.parent = some container := by
  have listed := mem_gists.2 ⟨node, member, rfl⟩
  rw [gists_equipAll, List.mem_append, List.mem_flatMap] at listed
  refine listed.imp_right ?_
  rintro ⟨setting, isSetting, isPart⟩
  rw [List.mem_pair] at isPart
  rcases isPart with same | same
  · exact ⟨setting, isSetting, .event, by decide, (congrArg Node.id same :),
      .inl (congrArg Node.kind same :), (congrArg Node.parent same :)⟩
  · exact ⟨setting, isSetting, .service, by decide,
      (congrArg Node.id same :).trans (serviceId_eq _ _), .inr (congrArg Node.kind same :),
      (congrArg Node.parent same :)⟩

/-- The nodes of a limit in place lie in the container. -/
theorem exists_part {part : Part} (member : setting ∈ settings) (isNode : part ≠ .flow) :
    ∃ node ∈ (equipAll delegate container activity settings graph).nodes,
      node.id = part.id setting.limit activity ∧ node.parent = some container := by
  have listed : ∀ gist ∈
      [{ boundaryEvent activity setting with parent := some container }.gist,
        { serviceTask activity setting.limit delegate with parent := some container }.gist],
      gist ∈ (equipAll delegate container activity settings graph).gists := by
    intro gist isPart
    rw [gists_equipAll, List.mem_append, List.mem_flatMap]
    exact .inr ⟨setting, member, isPart⟩
  cases part with
  | flow => exact absurd rfl isNode
  | event =>
      obtain ⟨node, present, same⟩ := mem_gists.1 (listed _ List.mem_cons_self)
      exact ⟨node, present, (congrArg Node.id same :), (congrArg Node.parent same :)⟩
  | service =>
      obtain ⟨node, present, same⟩ :=
        mem_gists.1 (listed _ (List.mem_cons_of_mem _ List.mem_cons_self))
      exact ⟨node, present, (congrArg Node.id same :).trans (serviceId_eq _ _),
        (congrArg Node.parent same :)⟩

/-- A flow is one of those below, or the flow of a limit in place. -/
theorem flow_of_equipAll {flow : SequenceFlow}
    (drawn : flow ∈ (equipAll delegate container activity settings graph).flows) :
    flow ∈ graph.flows ∨ ∃ setting ∈ settings, flow.id = Part.flow.id setting.limit activity ∧
      flow.source = Part.event.id setting.limit activity ∧
      flow.target = Part.service.id setting.limit activity := by
  rw [flows_equipAll, List.mem_append, List.mem_map] at drawn
  refine drawn.imp_right ?_
  rintro ⟨setting, isSetting, rfl⟩
  exact ⟨setting, isSetting, serviceFlowId_eq _ _, rfl, serviceId_eq _ _⟩

end Equip

/-! ## Limits in place and the activity -/

section Room

variable {delegate : String} {container activity : ElementId} {settings : List Setting}
  {graph : Graph} (room : Room activity settings graph)

include room

/-- Putting limits in place does not change the outline of the activity. -/
theorem outline?_equipAll :
    (equipAll delegate container activity settings graph).outline? activity =
      graph.outline? activity := by
  induction settings generalizing graph with
  | nil => rfl
  | cons setting rest inductionHypothesis =>
      rw [equipAll_cons, inductionHypothesis room.tail,
        outline?_equip (room.free setting List.mem_cons_self), Setting.redraw_of_apart]
      exact fun part same => part.id_ne_self setting.limit activity same.symm

/-- Putting limits in place does not bring the activity. -/
theorem node?_equipAll_eq_none (absent : graph.node? activity = none) :
    (equipAll delegate container activity settings graph).node? activity = none := by
  have same : ((equipAll delegate container activity settings graph).node? activity).map
      Node.outline = (graph.node? activity).map Node.outline :=
    map_outline_node? (outline?_equipAll room)
  rw [absent, Option.map_none, Option.map_eq_none_iff] at same
  exact same

theorem owningContainer_equipAll :
    owningContainer (equipAll delegate container activity settings graph) activity =
      owningContainer graph activity :=
  owningContainer_congr Node.outline (fun _ => rfl) (fun _ => rfl)
    (map_outline_node? (outline?_equipAll room))

theorem attributesOf_equipAll :
    attributesOf (equipAll delegate container activity settings graph) activity =
      attributesOf graph activity :=
  attributesOf_congr Node.outline (fun _ => rfl) (map_outline_node? (outline?_equipAll room))

/-- Limits are put in place on a well-formed process. -/
theorem wellFormed_equipAll (wellFormed : graph.WellFormed)
    (owned : owningContainer graph activity = .ok container) :
    (equipAll delegate container activity settings graph).WellFormed := by
  induction settings generalizing graph with
  | nil => exact wellFormed
  | cons setting rest inductionHypothesis =>
      have alone : Room activity [setting] graph :=
        room.mono (List.singleton_sublist.2 List.mem_cons_self).subperm (List.Subset.refl _)
      obtain ⟨node, found, _, parent⟩ := exists_of_owned owned
      obtain ⟨_, _, _, _, _, equipped⟩ := exists_equipped delegate wellFormed found parent setting
        (room.free setting List.mem_cons_self)
      exact inductionHypothesis room.tail equipped ((owningContainer_equipAll alone).trans owned)

/-- The ids of a limit in place are those of its parts and of nothing else. -/
theorem isSealed_equipAll (wellFormed : graph.WellFormed)
    (owned : owningContainer graph activity = .ok container) {setting : Setting}
    (member : setting ∈ settings) : Sealed setting.limit activity
      (equipAll delegate container activity settings graph) where
  wellFormed := wellFormed_equipAll room wellFormed owned
  root part isRoot := by
    obtain ⟨root, rootMember, rootId, _⟩ := wellFormed.rooted
    rw [root_equipAll, ← rootId] at isRoot
    exact room.free setting member part (isRoot ▸ id_mem_of_node rootMember)
  nodes node present part isPart := by
    rcases node_of_equipAll present with below | ⟨other, _, another, isNode, same, isTimer, _⟩
    · obtain ⟨before, isBelow, same⟩ := mem_gists.1 below
      have sameId : before.id = part.id setting.limit activity :=
        (congrArg Node.id same :).trans isPart
      exact absurd (sameId ▸ id_mem_of_node isBelow) (room.free setting member part)
    · rw [(Part.id_inj.1 (isPart.symm.trans same)).1]
      exact ⟨isNode, isTimer.holdsNothing⟩
  flows flow drawn part isPart := by
    rcases flow_of_equipAll drawn with below | ⟨other, _, same, _⟩
    · exact absurd (isPart ▸ id_mem_of_flow below) (room.free setting member part)
    · exact (Part.id_inj.1 (isPart.symm.trans same)).1
  loose flow drawn part joins := by
    rcases flow_of_equipAll drawn with below | ⟨other, _, sameId, source, target⟩
    · -- The ends of the flows below are below, too.
      obtain ⟨⟨first, firstMember, firstId⟩, second, secondMember, secondId⟩ :=
        wellFormed.joined flow below
      refine absurd ?_ (room.free setting member part)
      rcases joins with isPart | isPart
      · exact isPart ▸ firstId ▸ id_mem_of_node firstMember
      · exact isPart ▸ secondId ▸ id_mem_of_node secondMember
    · rw [source, target] at joins
      have sameLimit : other.limit = setting.limit :=
        joins.elim (fun same => (Part.id_inj.1 same).2.1) fun same => (Part.id_inj.1 same).2.1
      rw [sameId, sameLimit]

end Room

/-! ## Limits that are not in place -/

/-- No element of the limit can be removed, and removing any is not refused. -/
structure Uninstalled (limit : TimeLimit) (activity : ElementId) (graph : Graph) : Prop where
  flow : graph.flow? (Part.flow.id limit activity) = none
  node : ∀ part : Part, part ≠ .flow → graph.node? (part.id limit activity) = none
  root : ∀ part : Part, part ≠ .flow → part.id limit activity ≠ graph.root

namespace Uninstalled

variable {limit : TimeLimit} {activity : ElementId} {graph : Graph}

/-- Uninstalling a limit again changes nothing. -/
theorem uninstall_eq (uninstalled : Uninstalled limit activity graph) :
    uninstall activity limit graph = .ok () graph := by
  have nothing : ∀ part : Part, part ≠ .flow →
      graph.removeNode (part.id limit activity) = .ok (none, graph) := by
    intro part isNode
    simp only [removeNode, uninstalled.root part isNode, if_false, uninstalled.node part isNode]
  exact uninstall_eq_ok (removeFlow_of_flow?_eq_none uninstalled.flow)
    (nothing .service (by decide)) (nothing .event (by decide))

/-- A limit stays uninstalled whatever is erased. -/
theorem without (uninstalled : Uninstalled limit activity graph) (doomed : ElementId → Bool) :
    Uninstalled limit activity (graph.without doomed) where
  flow := by rw [flow?_without, uninstalled.flow, ite_self]
  node part isNode := by rw [node?_without, uninstalled.node part isNode, Option.map_none, ite_self]
  root := uninstalled.root

/-- A limit stays uninstalled while others are put in place. -/
theorem beside (uninstalled : Uninstalled limit activity graph) {delegate : String}
    {container : ElementId} {settings : List Setting}
    (other : limit ∉ settings.map Setting.limit) :
    Uninstalled limit activity (equipAll delegate container activity settings graph) where
  flow := by
    rw [← Option.not_isSome_iff_eq_none, flow?_isSome_iff]
    rintro ⟨flow, drawn, isFlow⟩
    rcases flow_of_equipAll drawn with below | ⟨setting, member, same, _⟩
    · have found := flow?_isSome_iff.2 ⟨flow, below, isFlow⟩
      rw [uninstalled.flow] at found
      cases found
    · exact other ((Part.id_inj.1 (isFlow.symm.trans same)).2.1 ▸ List.mem_map_of_mem member)
  node part isNode := by
    rw [← Option.not_isSome_iff_eq_none, node?_isSome_iff]
    rintro ⟨node, present, isPart⟩
    rcases node_of_equipAll present with below | ⟨setting, member, another, _, same, _⟩
    · have found := node?_isSome_iff_gists.2 ⟨node.gist, below, isPart⟩
      rw [uninstalled.node part isNode] at found
      cases found
    · exact other ((Part.id_inj.1 (isPart.symm.trans same)).2.1 ▸ List.mem_map_of_mem member)
  root part isNode := by
    rw [root_equipAll]
    exact uninstalled.root part isNode

/-- A limit that is not in place on a process is not in place below. -/
theorem of_equipAll {delegate : String} {container : ElementId} {settings : List Setting}
    (uninstalled : Uninstalled limit activity
      (equipAll delegate container activity settings graph)) :
    Uninstalled limit activity graph where
  flow := flow?_eq_none_of_fewer flows_subset_equipAll uninstalled.flow
  node part isNode := by
    rw [← Option.not_isSome_iff_eq_none, node?_isSome_iff_gists]
    rintro ⟨gist, below, isPart⟩
    have free := uninstalled.node part isNode
    rw [← Option.not_isSome_iff_eq_none, node?_isSome_iff_gists] at free
    exact free ⟨gist, gists_subset_equipAll below, isPart⟩
  root part isNode := by
    rw [← root_equipAll]
    exact uninstalled.root part isNode

end Uninstalled

/-- Uninstalling a limit is three removals by the ids of its parts. After that the limit is not in
place any more, whatever bore these ids. -/
theorem exists_cascades_of_uninstall {limit : TimeLimit} {activity : ElementId}
    {graph left : Graph} (wellFormed : graph.WellFormed)
    (done : uninstall activity limit graph = .ok () left) : ∃ first second third,
      graph.Cascade (Part.flow.id limit activity) first ∧
      (graph.without first).Cascade (Part.service.id limit activity) second ∧
      ((graph.without first).without second).Cascade (Part.event.id limit activity) third ∧
      left = ((graph.without first).without second).without third ∧
      Uninstalled limit activity left := by
  rw [uninstall, serviceFlowId_eq, serviceId_eq, boundaryId_eq] at done
  obtain ⟨_, _, flowRemoved, afterwards⟩ := TimerChange.exists_of_bind_eq_ok done
  obtain ⟨_, _, serviceRemoved, afterwards⟩ := TimerChange.exists_of_bind_eq_ok afterwards
  obtain ⟨_, _, eventRemoved, answered⟩ := TimerChange.exists_of_bind_eq_ok afterwards
  cases flowRemoved
  cases answered
  obtain ⟨first, flowCascade, same, flowless⟩ :=
    wellFormed.exists_cascade_of_removeFlow (Part.flow.id limit activity)
  have later := wellFormed.without flowCascade.toSeverable
  rw [same] at serviceRemoved
  obtain ⟨second, serviceCascade, rfl, serviceless, serviceNotRoot⟩ :=
    later.exists_cascade_of_removeNode (TimerChange.eq_ok_of_removeNode serviceRemoved)
  obtain ⟨third, eventCascade, rfl, eventless, eventNotRoot⟩ :=
    (later.without serviceCascade.toSeverable).exists_cascade_of_removeNode
      (TimerChange.eq_ok_of_removeNode eventRemoved)
  refine ⟨first, second, third, flowCascade, serviceCascade, eventCascade, rfl, ?_, ?_, ?_⟩
  · simp only [flow?_without _ third, flow?_without _ second, flowless, ite_self]
  · rintro (_ | _ | _) isNode
    · exact eventless
    · rw [node?_without, serviceless, Option.map_none, ite_self]
    · exact absurd rfl isNode
  · rintro (_ | _ | _) isNode
    · exact eventNotRoot
    · exact serviceNotRoot
    · exact absurd rfl isNode

/-! ## The process below -/

/-- On this process limits of the activity were worked out. Those to be put in place find room, and
the others are uninstalled. -/
structure Underlies (container activity : ElementId) (attributes : Attributes)
    (worked : List TimeLimit) (settings : List Setting) (base : Graph) : Prop where
  wellFormed : base.WellFormed
  owned : owningContainer base activity = .ok container
  carries : attributesOf base activity = attributes
  room : Room activity settings base
  uninstalled : ∀ limit ∈ worked, limit ∉ settings.map Setting.limit →
    Uninstalled limit activity base

/-- Before any limit is worked out, the process itself is the one below. -/
theorem Underlies.initially {container activity : ElementId} {graph : Graph}
    (wellFormed : graph.WellFormed) (owned : owningContainer graph activity = .ok container)
    (change : Attributes → Attributes) :
    Underlies container activity (change (attributesOf graph activity)) [] []
      (graph.describe activity change) where
  wellFormed := wellFormed.of_sameShape (sameShape_updateNode graph activity fun _ => rfl)
  owned := (owningContainer_describe change).trans owned
  carries := attributesOf_describe owned change
  room := ⟨List.nodup_nil, nofun⟩
  uninstalled := nofun

/-- The order of the limits does not matter to what is below. -/
theorem Underlies.perm {container activity : ElementId} {attributes : Attributes}
    {worked : List TimeLimit} {settings reordered : List Setting} {base : Graph}
    (underlies : Underlies container activity attributes worked settings base)
    (same : reordered.Perm settings) :
    Underlies container activity attributes worked reordered base :=
  { underlies with
    room := underlies.room.mono same.subperm (List.Subset.refl _)
    uninstalled := fun limit isWorked missing => underlies.uninstalled limit isWorked
      (mt (same.map Setting.limit).mem_iff.2 missing) }

section Erase

variable {delegate : String} {container activity : ElementId} {attributes : Attributes}
  {worked : List TimeLimit} {settings : List Setting} {base : Graph} {doomed : ElementId → Bool}

/-- What can be erased with limits in place can be erased below. -/
theorem severable_of_equipAll
    (severable : (equipAll delegate container activity settings base).Severable doomed) :
    base.Severable doomed where
  root := by
    rw [← severable.root, root_equipAll]
  inside element present holder parent gone := by
    cases element with
    | node node =>
        obtain ⟨twin, twinMember, same⟩ :=
          mem_gists.1 (gists_subset_equipAll (mem_gists.2 ⟨node, node_mem_elements.1 present, rfl⟩))
        have sameId : twin.id = node.id := (congrArg Node.id same :)
        have sameParent : twin.parent = some holder := (congrArg Node.parent same :).trans parent
        rw [show (Element.node node).id = twin.id from sameId.symm]
        exact severable.inside (.node twin) (node_mem_elements.2 twinMember) holder sameParent gone
    | flow flow =>
        exact severable.inside (.flow flow)
          (flow_mem_elements.2 (flows_subset_equipAll (flow_mem_elements.1 present))) holder parent
          gone
  joined flow drawn := severable.joined flow (flows_subset_equipAll drawn)

/-- A removal by the id of a part of another limit that spares the activity spares the limits in
place, since these lie beside the activity. -/
theorem Underlies.spares (underlies : Underlies container activity attributes worked settings base)
    {limit : TimeLimit} (other : limit ∉ settings.map Setting.limit) {part : Part}
    (cascade : (equipAll delegate container activity settings base).Cascade
      (part.id limit activity) doomed) (kept : doomed activity = false)
    {setting : Setting} (member : setting ∈ settings) (spared : Part) :
    doomed (spared.id setting.limit activity) = false := by
  -- With its container the activity would go.
  have containerKept : doomed container = false := by
    obtain ⟨node, found, _, parent⟩ :=
      exists_of_owned ((owningContainer_equipAll underlies.room).trans underlies.owned)
    rw [← Bool.not_eq_true]
    intro gone
    have isGone := cascade.inside (.node node) (node_mem_elements.2 (mem_of_node? found)) container
      parent gone
    rw [show (Element.node node).id = activity from id_of_node? found, kept] at isGone
    cases isGone
  have differs : ∀ another : Part, another.id setting.limit activity ≠ part.id limit activity :=
    fun another same => other ((Part.id_inj.1 same).2.1 ▸ List.mem_map_of_mem member)
  have nodeKept : ∀ another : Part, another ≠ .flow →
      doomed (another.id setting.limit activity) = false := by
    intro another isNode
    obtain ⟨node, present, sameId, parent⟩ := exists_part member isNode
    rw [← Bool.not_eq_true, ← sameId]
    intro gone
    obtain ⟨holder, named, holderGone⟩ :=
      cascade.node node present (sameId ▸ differs another) gone
    rw [Option.some.inj (named.symm.trans parent), containerKept] at holderGone
    cases holderGone
  cases spared with
  | event => exact nodeKept .event (by decide)
  | service => exact nodeKept .service (by decide)
  | flow =>
      have drawn : { serviceFlow activity setting.limit with parent := some container } ∈
          (equipAll delegate container activity settings base).flows := by
        rw [flows_equipAll]
        exact List.mem_append_right _ (List.mem_map.2 ⟨setting, member, rfl⟩)
      have flowId : (serviceFlow activity setting.limit).id =
          Part.flow.id setting.limit activity := serviceFlowId_eq _ _
      rw [← Bool.not_eq_true, ← flowId]
      intro gone
      rcases cascade.flow _ drawn (flowId ▸ differs .flow) gone with
        source | target | ⟨holder, named, holderGone⟩
      · rw [show (serviceFlow activity setting.limit).source =
          Part.event.id setting.limit activity from rfl, nodeKept .event (by decide)] at source
        cases source
      · rw [show (serviceFlow activity setting.limit).target =
          Part.service.id setting.limit activity from serviceId_eq _ _,
          nodeKept .service (by decide)] at target
        cases target
      · rw [← Option.some.inj named, containerKept] at holderGone
        cases holderGone

/-- A removal by the id of a part of another limit that spares the activity is one from the process
below. -/
theorem Underlies.cascade (underlies : Underlies container activity attributes worked settings base)
    {limit : TimeLimit} (other : limit ∉ settings.map Setting.limit) {part : Part}
    (cascade : (equipAll delegate container activity settings base).Cascade
      (part.id limit activity) doomed) (kept : doomed activity = false) :
    (equipAll delegate container activity settings base).without doomed =
        equipAll delegate container activity settings (base.without doomed) ∧
      Underlies container activity attributes worked settings (base.without doomed) := by
  refine ⟨without_equipAll underlies.room fun setting member spared =>
    underlies.spares other cascade kept member spared, ?_, ?_, ?_, ?_, ?_⟩
  · exact underlies.wellFormed.without (severable_of_equipAll cascade.toSeverable)
  · exact (owningContainer_without kept).trans underlies.owned
  · exact (attributesOf_without kept).trans underlies.carries
  · exact underlies.room.without doomed
  · intro limit isWorked missing
    exact (underlies.uninstalled limit isWorked missing).without doomed

end Erase

end BusinessProcess.TimeLimit
