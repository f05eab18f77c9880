import BusinessProcess.Proofs.History.Trace
import BusinessProcess.Proofs.TimeLimit.Display

/-!
# Installing and uninstalling time limits

A process that displays a board is left displaying one with a single dial turned, whether a limit is
uninstalled or installed. None of the steps on the way is refused.
-/

namespace BusinessProcess.TimeLimit

open BusinessProcess.Graph

/-- Uninstalling a limit removes its flow, its service task and its event. -/
theorem uninstall_eq_ok {graph first second left : Graph} {activity : ElementId}
    {limit : TimeLimit} {flow : Option SequenceFlow} {service event : Option Node}
    (flowRemoved : graph.removeFlow (Part.flow.id limit activity) = (flow, first))
    (serviceRemoved : first.removeNode (Part.service.id limit activity) = .ok (service, second))
    (eventRemoved : second.removeNode (Part.event.id limit activity) = .ok (event, left)) :
    uninstall activity limit graph = .ok () left := by
  rw [← serviceFlowId_eq] at flowRemoved
  rw [← serviceId_eq] at serviceRemoved
  rw [← boundaryId_eq] at eventRemoved
  have flowGone : TimerChange.removeFlow (serviceFlowId (limit.boundaryId activity)) graph =
      .ok flow first := by
    simp only [TimerChange.removeFlow, flowRemoved]
  have serviceGone : TimerChange.removeNode (serviceId (limit.boundaryId activity)) first =
      .ok service second := by
    simp only [TimerChange.removeNode, serviceRemoved]
  have eventGone : TimerChange.removeNode (limit.boundaryId activity) second =
      .ok event left := by
    simp only [TimerChange.removeNode, eventRemoved]
  rw [uninstall, TimerChange.bind_of_ok flowGone, TimerChange.bind_of_ok serviceGone,
    TimerChange.bind_of_ok eventGone]
  rfl

/-- Removing an activity uninstalls one limit after the other and then removes the node. -/
theorem removeActivity_eq {graph first second third : Graph} {activity : ElementId}
    (deadlineGone : uninstall activity .deadline graph = .ok () first)
    (warningGone : uninstall activity .firstWarning first = .ok () second)
    (loopGone : uninstall activity .loopWarning second = .ok () third) :
    removeActivity activity graph = TimerChange.removeNode activity third := by
  have allGone : all.forM (uninstall activity) graph = .ok () third :=
    (TimerChange.bind_of_ok deadlineGone).trans
      ((TimerChange.bind_of_ok warningGone).trans (TimerChange.bind_of_ok loopGone))
  exact TimerChange.bind_of_ok allGone

/-- Installing a limit uninstalls it and adds its event, its service task and its flow. -/
theorem install_eq_ok {delegate : String} {graph cleared first second left : Graph}
    {container activity : ElementId} {setting : Setting}
    (isCleared : uninstall activity setting.limit graph = .ok () cleared)
    (eventAdded : cleared.addNode container (boundaryEvent activity setting) = .ok first)
    (serviceAdded : first.addNode container (serviceTask activity setting.limit delegate) =
      .ok second)
    (flowAdded : second.addFlow container (serviceFlow activity setting.limit) = .ok left) :
    install delegate container activity setting graph = .ok () left := by
  have event : TimerChange.attempt (·.addNode container (boundaryEvent activity setting)) cleared =
      .ok () first := by
    simp only [TimerChange.attempt, eventAdded]
  have service : TimerChange.attempt
      (·.addNode container (serviceTask activity setting.limit delegate)) first =
        .ok () second := by
    simp only [TimerChange.attempt, serviceAdded]
  rw [install, TimerChange.bind_of_ok isCleared, TimerChange.bind_of_ok event,
    TimerChange.bind_of_ok service]
  simp only [TimerChange.attempt, flowAdded]

/-- The process with the three elements of a limit of `activity` in `container`. -/
def equip (delegate : String) (container activity : ElementId) (setting : Setting)
    (graph : Graph) : Graph :=
  let flow := serviceFlow activity setting.limit
  ((((graph.hold container
    (.node { boundaryEvent activity setting with parent := some container })).hold container
    (.node { serviceTask activity setting.limit delegate with parent := some container })).hold
    container (.flow { flow with parent := some container })).updateNode flow.source
    (·.linkOutgoing flow.id)).updateNode flow.target (·.linkIncoming flow.id)

/-- What the three additions of a limit add up to. -/
theorem eq_equip {delegate : String} {graph first second left : Graph}
    {container activity : ElementId} {setting : Setting}
    (eventAdded : graph.addNode container (boundaryEvent activity setting) = .ok first)
    (serviceAdded : first.addNode container (serviceTask activity setting.limit delegate) =
      .ok second)
    (flowAdded : second.addFlow container (serviceFlow activity setting.limit) = .ok left) :
    left = equip delegate container activity setting graph := by
  obtain ⟨_, rfl⟩ := addNode_eq_ok eventAdded
  obtain ⟨_, rfl⟩ := addNode_eq_ok serviceAdded
  obtain ⟨drawn, isDrawn, rfl⟩ := addFlow_eq_ok flowAdded
  obtain ⟨_, _, rfl⟩ := addFlowUnlinked_eq_ok isDrawn
  rfl

/-- The ids of the three elements of a limit were free if they could be added. -/
theorem free_of_added {delegate : String} {graph first second left : Graph}
    {container activity : ElementId} {setting : Setting}
    (eventAdded : graph.addNode container (boundaryEvent activity setting) = .ok first)
    (serviceAdded : first.addNode container (serviceTask activity setting.limit delegate) =
      .ok second)
    (flowAdded : second.addFlow container (serviceFlow activity setting.limit) = .ok left)
    (part : Part) : part.id setting.limit activity ∉ graph.ids := by
  obtain ⟨eventVacant, rfl⟩ := addNode_eq_ok eventAdded
  obtain ⟨serviceVacant, rfl⟩ := addNode_eq_ok serviceAdded
  obtain ⟨_, isDrawn, _⟩ := addFlow_eq_ok flowAdded
  obtain ⟨flowVacant, _⟩ := addFlowUnlinked_eq_ok isDrawn
  have stays : ∀ (process : Graph) (element : Element) {id : ElementId}, id ∈ process.ids →
      id ∈ (process.hold container element).ids :=
    fun process element _ used => (ids_hold _ _ _).mem_iff.2 (List.mem_cons_of_mem _ used)
  intro used
  cases part with
  | event => exact eventVacant.free used
  | service =>
      rw [← serviceId_eq] at used
      exact serviceVacant.free (stays _ _ used)
  | flow =>
      rw [← serviceFlowId_eq] at used
      exact flowVacant.free (stays _ _ (stays _ _ used))

/-- The three elements of a limit can be added to a container once their ids are free. They show
what parts of the limit show, and nothing else changes. -/
theorem exists_added (delegate : String) {graph : Graph} (wellFormed : graph.WellFormed)
    {activity : Node} {container : ElementId} (held : activity.parent = some container)
    {outer : Node} (outerShown : graph.face? container = some (.node outer))
    (outerHolds : outer.kind.isContainer = true) (setting : Setting)
    (free : ∀ part : Part, graph.face? (part.id setting.limit activity.id) = none) :
    ∃ first second left, graph.addNode container (boundaryEvent activity.id setting) = .ok first ∧
      first.addNode container (serviceTask activity.id setting.limit delegate) = .ok second ∧
      second.addFlow container (serviceFlow activity.id setting.limit) = .ok left ∧
      left.WellFormed ∧ left.root = graph.root ∧
      (∀ part : Part, left.face? (part.id setting.limit activity.id) =
        some (part.face delegate activity setting.limit setting.expression)) ∧
      ∀ id, (∀ part : Part, id ≠ part.id setting.limit activity.id) →
        left.face? id = graph.face? id := by
  have different : ∀ first second : Part, first ≠ second →
      first.id setting.limit activity.id ≠ second.id setting.limit activity.id :=
    fun _ _ differs same => differs (Part.id_inj.1 same).1
  have outerElsewhere : ∀ part : Part, container ≠ part.id setting.limit activity.id := by
    rintro part rfl
    rw [free part] at outerShown
    cases outerShown
  -- The event comes first, the service task second.
  have eventVacant : graph.Vacant container (boundaryEvent activity.id setting).id :=
    vacant_of_face? (free .event) outerShown outerHolds
  obtain ⟨first, eventAdded, firstAdds⟩ := wellFormed.addNode_of_vacant eventVacant rfl
  replace firstAdds : graph.Adds
      (Part.event.face delegate activity setting.limit setting.expression) first := by
    rw [Part.face, held]
    exact firstAdds
  have firstFrame : ∀ {id}, id ≠ Part.event.id setting.limit activity.id →
      first.face? id = graph.face? id :=
    fun differs => firstAdds.face?_of_ne (by rwa [Part.id_face])
  have serviceVacant : first.Vacant container
      (serviceTask activity.id setting.limit delegate).id := by
    refine vacant_of_face? ?_ ((firstFrame (outerElsewhere .event)).trans outerShown) outerHolds
    rw [show (serviceTask activity.id setting.limit delegate).id =
      Part.service.id setting.limit activity.id from serviceId_eq _ _,
      firstFrame (different .service .event (by decide)), free .service]
  obtain ⟨second, serviceAdded, secondAdds⟩ :=
    firstAdds.wellFormed.addNode_of_vacant serviceVacant rfl
  replace secondAdds : first.Adds
      (Part.service.face delegate activity setting.limit setting.expression) second := by
    rw [Part.face, held]
    exact secondAdds
  have secondFrame : ∀ {id}, id ≠ Part.service.id setting.limit activity.id →
      second.face? id = first.face? id :=
    fun differs => secondAdds.face?_of_ne (by rwa [Part.id_face])
  -- The flow comes last, between the two.
  have eventShown : second.face? (Part.event.id setting.limit activity.id) =
      some (Part.event.face delegate activity setting.limit setting.expression) := by
    rw [secondFrame (different .event .service (by decide)), ← firstAdds.face?_self, Part.id_face]
  have serviceShown : second.face? (Part.service.id setting.limit activity.id) =
      some (Part.service.face delegate activity setting.limit setting.expression) := by
    rw [← secondAdds.face?_self, Part.id_face]
  have flowVacant : second.Vacant container (serviceFlow activity.id setting.limit).id := by
    refine vacant_of_face? ?_ ((secondFrame (outerElsewhere .service)).trans
      ((firstFrame (outerElsewhere .event)).trans outerShown)) outerHolds
    rw [show (serviceFlow activity.id setting.limit).id =
      Part.flow.id setting.limit activity.id from serviceFlowId_eq _ _,
      secondFrame (different .flow .service (by decide)),
      firstFrame (different .flow .event (by decide)), free .flow]
  have eventThere :
      (second.node? (serviceFlow activity.id setting.limit).source).isSome = true := by
    obtain ⟨node, found, _⟩ := node?_of_face? eventShown
    exact Option.isSome_iff_exists.2 ⟨node, found⟩
  have serviceThere :
      (second.node? (serviceFlow activity.id setting.limit).target).isSome = true := by
    obtain ⟨node, found, _⟩ := node?_of_face? serviceShown
    rw [← serviceId_eq] at found
    exact Option.isSome_iff_exists.2 ⟨node, found⟩
  obtain ⟨left, flowAdded, leftAdds⟩ :=
    secondAdds.wellFormed.addFlow_of_vacant flowVacant eventThere serviceThere
  replace leftAdds : second.Adds
      (Part.flow.face delegate activity setting.limit setting.expression) left := by
    rw [Part.face, held]
    exact leftAdds
  have leftFrame : ∀ {id}, id ≠ Part.flow.id setting.limit activity.id →
      left.face? id = second.face? id :=
    fun differs => leftAdds.face?_of_ne (by rwa [Part.id_face])
  refine ⟨first, second, left, eventAdded, serviceAdded, flowAdded, leftAdds.wellFormed,
    leftAdds.root.trans (secondAdds.root.trans firstAdds.root), ?_, ?_⟩
  · intro part
    cases part with
    | event => rw [leftFrame (different .event .flow (by decide)), eventShown]
    | service => rw [leftFrame (different .service .flow (by decide)), serviceShown]
    | flow => rw [← leftAdds.face?_self, Part.id_face]
  · intro id elsewhere
    rw [leftFrame (elsewhere .flow), secondFrame (elsewhere .service),
      firstFrame (elsewhere .event)]

/-- The elements of a limit of an activity that lies in the container can be added to a well-formed
process once their ids are free. -/
theorem exists_equipped (delegate : String) {graph : Graph} (wellFormed : graph.WellFormed)
    {activity container : ElementId} {node : Node} (found : graph.node? activity = some node)
    (parent : node.parent = some container) (setting : Setting)
    (free : ∀ part : Part, part.id setting.limit activity ∉ graph.ids) :
    ∃ first second, graph.addNode container (boundaryEvent activity setting) = .ok first ∧
      first.addNode container (serviceTask activity setting.limit delegate) = .ok second ∧
      second.addFlow container (serviceFlow activity setting.limit) =
        .ok (equip delegate container activity setting graph) ∧
      (equip delegate container activity setting graph).WellFormed := by
  obtain rfl := id_of_node? found
  obtain ⟨outer, outerMember, rfl, outerHolds⟩ :=
    wellFormed.parent_named (node_mem_elements.2 (mem_of_node? found)) parent
  obtain ⟨first, second, left, eventAdded, serviceAdded, flowAdded, leftWellFormed, _⟩ :=
    exists_added delegate wellFormed parent
      (face?_of_node_mem wellFormed.distinct outerMember) outerHolds setting
      fun part => face?_eq_none_iff.2 (free part)
  obtain rfl := eq_equip eventAdded serviceAdded flowAdded
  exact ⟨first, second, eventAdded, serviceAdded, flowAdded, leftWellFormed⟩

namespace Displays

section Activity

variable {delegate : String} {start graph : Graph} {board : Board}
  {activity : Node} (limitable : Limitable start activity)

include limitable

/-- A change of nothing but the parts of one limit turns one dial. -/
theorem of_parts (displays : Displays delegate start board graph) {later : Graph}
    (wellFormed : later.WellFormed) (root : later.root = graph.root) (limit : TimeLimit)
    (expression : Option TimerExpression)
    (parts : ∀ part : Part, later.face? (part.id limit activity.id) =
      expression.map fun expression => part.face delegate activity limit expression)
    (frame : ∀ id, (∀ part : Part, id ≠ part.id limit activity.id) →
      later.face? id = graph.face? id) :
    Displays delegate start (board.turn activity.id (·.put limit expression)) later where
  wellFormed := wellFormed
  root := root.trans displays.root
  parts := by
    intro task taskMember isTask other part
    by_cases sameId : task.id = activity.id
    · obtain rfl := limitable.wellFormed.node_eq taskMember limitable.member sameId
      rw [Board.turn_self]
      by_cases sameLimit : other = limit
      · subst sameLimit
        rw [parts part, Dial.put]
        simp only [if_true]
      · have elsewhere : ∀ another : Part, part.id other task.id ≠ another.id limit task.id :=
          fun another same => sameLimit (Part.id_inj.1 same).2.1
        rw [frame _ elsewhere, displays.parts task taskMember isTask other part, Dial.put]
        simp only [sameLimit, if_false]
    · have elsewhere : ∀ another : Part, part.id other task.id ≠ another.id limit activity.id :=
        fun another same => sameId (Part.id_inj.1 same).2.2
      rw [frame _ elsewhere, displays.parts task taskMember isTask other part,
        Board.turn_of_ne board sameId]
  others := by
    intro id apart
    have painted : (board.turn activity.id (·.put limit expression)).paint = board.paint :=
      board.paint_turn activity.id fun _ => rfl
    rw [frame id fun part => apart activity limitable.member limitable.isActivity limit part,
      displays.others id apart, painted]

/-- No part of a limit is the root. -/
private theorem part_ne_root (displays : Displays delegate start board graph) (limit : TimeLimit)
    (part : Part) : part.id limit activity.id ≠ graph.root := by
  obtain ⟨root, rootMember, rootId, _⟩ := limitable.wellFormed.rooted
  intro isRoot
  refine limitable.node_id_ne rootMember limit part ?_
  rw [rootId, isRoot, displays.root]

/-- Once its flow is gone, removing a part of a limit removes nothing else. -/
private theorem removeNode_part (displays : Displays delegate start board graph)
    (limit : TimeLimit) (part : Part) (isNode : part ≠ .flow) {expression : TimerExpression}
    (shown : (board activity.id).shown limit = some expression) {later : Graph}
    (wellFormed : later.WellFormed) (root : later.root = graph.root)
    (sameFace : later.face? (part.id limit activity.id) = graph.face? (part.id limit activity.id))
    (noFlow : ∀ flow ∈ later.flows,
      flow ∈ graph.flows ∧ flow.id ≠ Part.flow.id limit activity.id) :
    (∃ removed, later.removeNode (part.id limit activity.id) =
      .ok (some removed, later.without (· = part.id limit activity.id))) ∧
      (later.without (· = part.id limit activity.id)).WellFormed := by
  have face := displays.face?_of_part limitable limit part
  rw [shown, Option.map_some, ← sameFace] at face
  obtain ⟨node, found, holdsNothing⟩ : ∃ node, later.node? (part.id limit activity.id) = some node ∧
      node.kind.isContainer = false := by
    cases part with
    | flow => exact absurd rfl isNode
    | event =>
        obtain ⟨node, found, same⟩ := node?_of_face? face
        have kind : node.kind = .event .boundary := (congrArg Node.kind same :)
        exact ⟨node, found, by rw [kind]; rfl⟩
    | service =>
        obtain ⟨node, found, same⟩ := node?_of_face? face
        have kind : node.kind = .task .service := (congrArg Node.kind same :)
        exact ⟨node, found, by rw [kind]; rfl⟩
  have sameId := id_of_node? found
  rw [← sameId]
  have childless := wellFormed.childless_of_holdsNothing (mem_of_node? found) holdsNothing
  refine (wellFormed.removeNode_of_isolated (mem_of_node? found) ?_ childless
    fun flow drawn => ?_).imp_left fun removed => ⟨_, removed⟩
  · rw [sameId, root]
    exact displays.part_ne_root limitable limit part
  · obtain ⟨present, differs⟩ := noFlow flow drawn
    rw [sameId]
    exact not_or.1 fun touches => differs
      (displays.flow_id_of_touches limitable present touches)

/-- Uninstalling a limit erases its parts and leaves its dial showing nothing. -/
theorem uninstall (displays : Displays delegate start board graph) (limit : TimeLimit) :
    TimeLimit.uninstall activity.id limit graph =
        .ok () (graph.without (isPartOf limit activity.id)) ∧
      Displays delegate start (board.turn activity.id (·.put limit none))
        (graph.without (isPartOf limit activity.id)) := by
  have partsShown := displays.face?_of_part limitable limit
  have notRoot := displays.part_ne_root limitable limit
  cases shown : (board activity.id).shown limit with
  | none =>
      have free : ∀ part : Part, part.id limit activity.id ∉ graph.ids := by
        intro part
        rw [← face?_eq_none_iff, partsShown part, shown, Option.map_none]
      have absent : ∀ part : Part, graph.node? (part.id limit activity.id) = none ∧
          graph.flow? (part.id limit activity.id) = none := by
        intro part
        have nothing := free part
        rw [← contains_iff, contains, Bool.or_eq_true, not_or, Bool.not_eq_true,
          Bool.not_eq_true, Option.isSome_eq_false_iff, Option.isSome_eq_false_iff] at nothing
        simpa only [Option.isNone_iff_eq_none] using nothing
      have removesNothing : ∀ part : Part,
          graph.removeNode (part.id limit activity.id) = .ok (none, graph) := by
        intro part
        simp only [removeNode, notRoot part, if_false, (absent part).1]
      have nothingGone : graph.without (isPartOf limit activity.id) = graph := by
        refine displays.wellFormed.tidy.without_eq_self fun id used => ?_
        rw [← Bool.not_eq_true, isPartOf_iff]
        rintro ⟨part, rfl⟩
        exact free part used
      rw [nothingGone]
      refine ⟨uninstall_eq_ok (removeFlow_of_flow?_eq_none (absent .flow).2)
        (removesNothing .service) (removesNothing .event), ?_⟩
      rw [Board.turn_eq_self]
      · exact displays
      · refine Dial.ext rfl ?_
        funext other
        simp only [Dial.put]
        split
        next same => rw [same, shown]
        next => rfl
  | some expression =>
      have removedFlow : graph.removeFlow (Part.flow.id limit activity.id) =
          (some { serviceFlow activity.id limit with parent := activity.parent },
            graph.without (· = Part.flow.id limit activity.id)) := by
        refine displays.wellFormed.removeFlow_eq (flow?_of_face? ?_)
        rw [partsShown .flow, shown]
        rfl
      have wellFormedFlow := displays.wellFormed.removeFlow (Part.flow.id limit activity.id)
      rw [removedFlow] at wellFormedFlow
      have different : ∀ first second : Part, first ≠ second →
          first.id limit activity.id ≠ second.id limit activity.id :=
        fun _ _ differs same => differs (Part.id_inj.1 same).1
      obtain ⟨⟨service, removedService⟩, wellFormedService⟩ :=
        displays.removeNode_part limitable limit .service
          (by decide) shown wellFormedFlow rfl
          (by simp [face?_without, different .service .flow (by decide)])
          (fun flow drawn => by simpa using mem_flows_without.1 drawn)
      obtain ⟨⟨event, removedEvent⟩, wellFormedEvent⟩ :=
        displays.removeNode_part limitable limit .event
          (by decide) shown wellFormedService rfl
          (by simp [face?_without, different .event .flow (by decide),
            different .event .service (by decide)])
          (fun flow drawn => by simpa using mem_flows_without.1 (mem_flows_without.1 drawn).1)
      have whole : ((graph.without (· = Part.flow.id limit activity.id)).without
          (· = Part.service.id limit activity.id)).without (· = Part.event.id limit activity.id) =
            graph.without (isPartOf limit activity.id) := by
        rw [without_without, without_without]
        rfl
      rw [← whole]
      refine ⟨uninstall_eq_ok removedFlow removedService removedEvent, ?_⟩
      refine displays.of_parts limitable wellFormedEvent rfl limit none ?_ ?_
      · intro part
        cases part <;> simp [face?_without]
      · intro id elsewhere
        simp [face?_without, elsewhere]

/-- Installing a limit puts its parts in place of those that are there and leaves its dial showing
the timer. -/
theorem install (displays : Displays delegate start board graph) {container : ElementId}
    (held : activity.parent = some container) (setting : Setting) :
    TimeLimit.install delegate container activity.id setting graph =
        .ok () (equip delegate container activity.id setting
          (graph.without (isPartOf setting.limit activity.id))) ∧
      Displays delegate start
        (board.turn activity.id (·.put setting.limit (some setting.expression)))
        (equip delegate container activity.id setting
          (graph.without (isPartOf setting.limit activity.id))) := by
  obtain ⟨isCleared, clearedDisplays⟩ := displays.uninstall limitable setting.limit
  have free : ∀ part : Part, (graph.without (isPartOf setting.limit activity.id)).face?
      (part.id setting.limit activity.id) = none := by
    intro part
    rw [clearedDisplays.face?_of_part limitable, Board.turn_self, Dial.put]
    simp
  -- The container is where it was at the start.
  obtain ⟨outer, outerMember, rfl, outerContainer⟩ :=
    limitable.wellFormed.parent_named (node_mem_elements.2 limitable.member) held
  have outerShown :=
    clearedDisplays.face?_of_node limitable.unlimited limitable.wellFormed.distinct outerMember
  obtain ⟨first, second, left, eventAdded, serviceAdded, flowAdded, wellFormed, root, parts,
      frame⟩ :=
    exists_added delegate clearedDisplays.wellFormed held outerShown
      (by rw [Board.kind_paintNode]; exact outerContainer) setting free
  rw [← eq_equip eventAdded serviceAdded flowAdded]
  refine ⟨install_eq_ok isCleared eventAdded serviceAdded flowAdded, ?_⟩
  have turned := clearedDisplays.of_parts limitable wellFormed root
    setting.limit (some setting.expression) parts frame
  rw [Board.turn_turn] at turned
  simpa only [Dial.put_put] using turned

end Activity

end Displays

end BusinessProcess.TimeLimit
