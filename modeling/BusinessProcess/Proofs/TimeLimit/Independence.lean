import BusinessProcess.Proofs.Graph.Outline
import BusinessProcess.Proofs.TimeLimit.Purge
import BusinessProcess.Proofs.TimeLimit.Seclusion

/-!
# Changes of time limits of different activities commute

A change of a time limit is about what belongs to its activity: it changes no outline of anything
else, and what it makes of the outlines that belong to the activity depends on these only. What
belongs to one activity does not belong to another one, so changes for two activities can be made in
either order, even where one lies in the other.
-/

namespace BusinessProcess.TimeLimit

open BusinessProcess.Graph

/-! ## Outlines of installed limits -/

section Equip

variable {delegate : String} {container activity : ElementId} {setting : Setting} {graph : Graph}

/-- The outline of a part of a time limit of an activity in the container. -/
def Part.outline (delegate : String) (container activity : ElementId) (setting : Setting) :
    Part → Element
  | .event => .node { boundaryEvent activity setting with
      parent := some container
      outgoing := [Part.flow.id setting.limit activity] }
  | .service => .node { serviceTask activity setting.limit delegate with
      parent := some container
      incoming := [Part.flow.id setting.limit activity] }
  | .flow => .flow { serviceFlow activity setting.limit with parent := some container }

/-- What is drawn under an id after a limit is installed, given what was drawn before. -/
def Setting.redraw (setting : Setting) (delegate : String) (container activity : ElementId)
    (id : ElementId) (outline : Option Element) : Option Element :=
  if id = Part.flow.id setting.limit activity then
    some (Part.flow.outline delegate container activity setting)
  else if id = Part.service.id setting.limit activity then
    some (Part.service.outline delegate container activity setting)
  else if id = Part.event.id setting.limit activity then
    some (Part.event.outline delegate container activity setting)
  else outline

theorem Setting.redraw_of_apart {id : ElementId}
    (apart : ∀ part : Part, id ≠ part.id setting.limit activity) (outline : Option Element) :
    setting.redraw delegate container activity id outline = outline := by
  rw [redraw, if_neg (apart .flow), if_neg (apart .service), if_neg (apart .event)]

/-- What is drawn anew does not depend on parts of the limit that were there before. -/
theorem Setting.redraw_uninstalled (setting : Setting) (delegate : String)
    (container activity id : ElementId) (outline : Option Element) :
    setting.redraw delegate container activity id
        (if isPartOf setting.limit activity id then none else outline) =
      setting.redraw delegate container activity id outline := by
  by_cases isPart : isPartOf setting.limit activity id = true
  · obtain ⟨part, rfl⟩ := isPartOf_iff.1 isPart
    cases part <;> simp [redraw]
  · rw [if_neg isPart]

/-- The ids of the parts of a limit tell the parts apart. -/
theorem Part.id_ne {first second : Part} (differ : first ≠ second) (limit : TimeLimit)
    (activity : ElementId) : first.id limit activity ≠ second.id limit activity :=
  fun same => differ (Part.id_inj.1 same).1

/-- The elements of a limit show their outlines before they are linked. -/
private theorem outline?_held (free : ∀ part : Part, part.id setting.limit activity ∉ graph.ids)
    (id : ElementId) : (((graph.hold container
      (.node { boundaryEvent activity setting with parent := some container })).hold container
      (.node { serviceTask activity setting.limit delegate with
        parent := some container })).hold container
      (.flow { serviceFlow activity setting.limit with parent := some container })).outline? id =
      if id = Part.flow.id setting.limit activity then
        some (.flow { serviceFlow activity setting.limit with parent := some container })
      else if id = Part.service.id setting.limit activity then
        some (.node { serviceTask activity setting.limit delegate with parent := some container })
      else if id = Part.event.id setting.limit activity then
        some (.node { boundaryEvent activity setting with parent := some container })
      else graph.outline? id := by
  have serviceFree : (serviceTask activity setting.limit delegate).id ∉ (graph.hold container
      (.node { boundaryEvent activity setting with parent := some container })).ids := by
    rw [show (serviceTask activity setting.limit delegate).id = _ from serviceId_eq _ _,
      (ids_hold _ _ _).mem_iff, List.mem_cons, not_or]
    exact ⟨Part.id_ne (show Part.service ≠ .event by decide) setting.limit activity, free .service⟩
  rw [outline?_hold (flow_free free), outline?_hold serviceFree, outline?_hold (free .event),
    ← serviceFlowId_eq, ← serviceId_eq]
  rfl

/-- Installing a limit whose ids are free adds the outlines of its parts and changes no other
outline. -/
theorem outline?_equip (free : ∀ part : Part, part.id setting.limit activity ∉ graph.ids)
    (id : ElementId) : (equip delegate container activity setting graph).outline? id =
      setting.redraw delegate container activity id (graph.outline? id) := by
  have target : (serviceFlow activity setting.limit).target =
      Part.service.id setting.limit activity := serviceId_eq _ _
  have source : (serviceFlow activity setting.limit).source =
      Part.event.id setting.limit activity := rfl
  have flow : (serviceFlow activity setting.limit).id =
      Part.flow.id setting.limit activity := serviceFlowId_eq _ _
  dsimp only [equip, Setting.redraw]
  rw [outline?_updateNode _ _ id (·.linkIncoming (serviceFlow activity setting.limit).id)
      (fun node => node.id_linkIncoming _) fun node => node.outline_linkIncoming _,
    outline?_updateNode _ _ id (·.linkOutgoing (serviceFlow activity setting.limit).id)
      (fun node => node.id_linkOutgoing _) fun node => node.outline_linkOutgoing _,
    outline?_held free, target, source, flow]
  by_cases isFlow : id = Part.flow.id setting.limit activity
  · have notService := Part.id_ne (show Part.flow ≠ .service by decide) setting.limit activity
    have notEvent := Part.id_ne (show Part.flow ≠ .event by decide) setting.limit activity
    simp only [isFlow, notService, notEvent, if_true, if_false]
    rfl
  · by_cases isService : id = Part.service.id setting.limit activity
    · have notEvent := Part.id_ne (show Part.service ≠ .event by decide) setting.limit activity
      have notFlow := Part.id_ne (show Part.service ≠ .flow by decide) setting.limit activity
      simp only [isService, notEvent, notFlow, if_true, if_false]
      rfl
    · by_cases isEvent : id = Part.event.id setting.limit activity
      · simp only [isFlow, isService, if_pos isEvent, if_false]
        rfl
      · simp only [isFlow, isService, isEvent, if_false]

end Equip

/-! ## Steps of a change -/

/-- The activity lies in the container, and the ids of the parts of its limits are taken by these
parts only. -/
structure Anchored (activity container : ElementId) (graph : Graph) : Prop where
  secluded : Secluded activity graph
  shown : ∃ node, graph.outline? activity = some (.node node) ∧ node.parent = some container

/-- On every process in which the activity is anchored the step is done and leaves the activity
anchored, with the redrawn outlines. -/
def Redraws (activity container : ElementId)
    (redraw : ElementId → Option Element → Option Element) (step : TimerChange Unit) : Prop :=
  ∀ graph, Anchored activity container graph → ∃ left, step graph = .ok () left ∧
    Anchored activity container left ∧ left.root = graph.root ∧
      ∀ id, left.outline? id = redraw id (graph.outline? id)

section Steps

variable {delegate : String} {activity container : ElementId}

/-- Erasing and adding parts of limits of an activity is not about the activity itself. -/
theorem Anchored.of_outline_eq {graph left : Graph} (anchored : Anchored activity container graph)
    (secluded : Secluded activity left)
    (same : left.outline? activity = graph.outline? activity) :
    Anchored activity container left :=
  ⟨secluded, same ▸ anchored.shown⟩

theorem isPartOf_self (limit : TimeLimit) (activity : ElementId) :
    isPartOf limit activity activity = false := by
  rw [← Bool.not_eq_true, isPartOf_iff]
  rintro ⟨part, same⟩
  exact part.id_ne_self limit activity same.symm

/-- No outlines but those of the parts of a limit are lost when it is uninstalled. -/
theorem Secluded.outline?_without {graph : Graph} (secluded : Secluded activity graph)
    (limit : TimeLimit) (id : ElementId) :
    (graph.without (isPartOf limit activity)).outline? id =
      if isPartOf limit activity id then none else graph.outline? id := by
  refine Graph.outline?_without (fun reference node isPart joined => ?_) id
  obtain ⟨part, rfl⟩ := isPartOf_iff.1 isPart
  unfold joins at joined
  cases found : graph.flow? (part.id limit activity) with
  | none => simp [found] at joined
  | some flow =>
      obtain ⟨_, source, target⟩ :=
        secluded.flows flow (mem_of_flow? found) limit part (id_of_flow? found)
      simp only [found, Option.any_some, Bool.or_eq_true, decide_eq_true_eq] at joined
      rcases joined with rfl | rfl
      · exact isPartOf_iff.2 ⟨.event, source⟩
      · exact isPartOf_iff.2 ⟨.service, target⟩

theorem redraws_describe (change : Attributes → Attributes) :
    Redraws activity container
      (fun id outline => if id = activity then
        outline.map (Element.mapNode fun node =>
          { node with attributes := change node.attributes }) else outline)
      (.apply (·.updateNode activity fun node =>
        { node with attributes := change node.attributes })) := by
  intro graph anchored
  have drawn : ∀ id, (graph.updateNode activity fun node =>
      { node with attributes := change node.attributes }).outline? id =
        if id = activity then (graph.outline? id).map (Element.mapNode fun node =>
          { node with attributes := change node.attributes }) else graph.outline? id :=
    fun id => outline?_updateNode graph activity id _ (fun _ => rfl) fun _ => rfl
  obtain ⟨node, shown, parent⟩ := anchored.shown
  refine ⟨_, rfl, ⟨?_, ?_⟩, rfl, drawn⟩
  · exact anchored.secluded.of_sameShape (sameShape_updateNode graph activity fun _ => rfl)
  · refine ⟨{ node with attributes := change node.attributes }, ?_, parent⟩
    rw [drawn, if_pos rfl, shown]
    rfl

theorem redraws_uninstall (limit : TimeLimit) :
    Redraws activity container
      (fun id outline => if isPartOf limit activity id then none else outline)
      (uninstall activity limit) := by
  intro graph anchored
  have done := anchored.secluded.uninstall_eq limit
  have drawn := anchored.secluded.outline?_without limit
  have kept := Secluded.keeps_uninstall activity limit graph anchored.secluded
  rw [TimerChange.left, done] at kept
  refine ⟨_, done, anchored.of_outline_eq kept ?_, rfl, drawn⟩
  rw [drawn, isPartOf_self, if_neg Bool.false_ne_true]

theorem redraws_install (setting : Setting) :
    Redraws activity container (setting.redraw delegate container activity)
      (install delegate container activity setting) := by
  intro graph anchored
  obtain ⟨cleared, isCleared, clearedAnchored, _, clearedDrawn⟩ :=
    redraws_uninstall setting.limit graph anchored
  obtain rfl : graph.without (isPartOf setting.limit activity) = cleared := by
    rw [anchored.secluded.uninstall_eq setting.limit] at isCleared
    cases isCleared
    rfl
  have free : ∀ part : Part, part.id setting.limit activity ∉
      (graph.without (isPartOf setting.limit activity)).ids :=
    free_of_erased graph setting.limit
  obtain ⟨_, shown, parent⟩ := clearedAnchored.shown
  obtain ⟨node, found, rfl⟩ := node?_of_outline? shown
  obtain ⟨first, second, eventAdded, serviceAdded, flowAdded, _⟩ :=
    exists_equipped delegate clearedAnchored.secluded.wellFormed found parent setting free
  have done := install_eq_ok isCleared eventAdded serviceAdded flowAdded
  have kept := Secluded.keeps_install delegate container activity setting graph anchored.secluded
  rw [TimerChange.left, done] at kept
  have drawn : ∀ id, (equip delegate container activity setting
      (graph.without (isPartOf setting.limit activity))).outline? id =
        setting.redraw delegate container activity id (graph.outline? id) := by
    intro id
    rw [outline?_equip free, clearedDrawn, Setting.redraw_uninstalled]
  refine ⟨_, done, anchored.of_outline_eq kept ?_, ?_, drawn⟩
  · rw [drawn, Setting.redraw_of_apart]
    exact fun part same => part.id_ne_self setting.limit activity same.symm
  · simp [equip]

end Steps

/-! ## Changes on two processes -/

/-- Two processes agree on what belongs to an activity, and the rest of each is as it was. -/
structure Abreast (condition : Graph → Prop) (activity : ElementId)
    (start otherStart graph other : Graph) : Prop where
  holds : condition graph
  otherHolds : condition other
  root : graph.root = start.root
  otherRoot : other.root = otherStart.root
  agree : ∀ id, belongsTo activity id = true → graph.outline? id = other.outline? id
  frame : ∀ id, belongsTo activity id = false → graph.outline? id = start.outline? id
  otherFrame : ∀ id, belongsTo activity id = false → other.outline? id = otherStart.outline? id

section Abreast

variable {condition : Graph → Prop} {delegate : String} {activity container : ElementId}
  {start otherStart graph other : Graph}

/-- A step that redraws nothing but what belongs to the activity keeps two processes abreast. -/
theorem Redraws.tracks {redraw : ElementId → Option Element → Option Element}
    {step : TimerChange Unit} (redraws : Redraws activity container redraw step)
    (idle : ∀ id outline, belongsTo activity id = false → redraw id outline = outline)
    (start otherStart : Graph) :
    TimerChange.Tracks (Abreast (Anchored activity container) activity start otherStart) step := by
  intro graph other abreast
  obtain ⟨left, done, anchored, root, drawn⟩ := redraws graph abreast.holds
  obtain ⟨otherLeft, otherDone, otherAnchored, otherRoot, otherDrawn⟩ :=
    redraws other abreast.otherHolds
  simp only [TimerChange.answer, TimerChange.left, done, otherDone, true_and]
  refine ⟨anchored, otherAnchored, root.trans abreast.root, otherRoot.trans abreast.otherRoot,
    fun id belongs => ?_, fun id apart => ?_, fun id apart => ?_⟩
  · rw [drawn, otherDrawn, abreast.agree id belongs]
  · rw [drawn, idle id _ apart, abreast.frame id apart]
  · rw [otherDrawn, idle id _ apart, abreast.otherFrame id apart]

/-- The activity is the same node on both sides but for its children. -/
theorem Abreast.node?_eq (abreast : Abreast condition activity start otherStart graph other) :
    (graph.node? activity).map Node.outline = (other.node? activity).map Node.outline :=
  map_outline_node? (abreast.agree activity (belongsTo_self activity))

/-- An activity whose limits have an owner lies in that container. -/
theorem Secluded.anchored (secluded : Secluded activity graph)
    (owned : owningContainer graph activity = .ok container) :
    Anchored activity container graph := by
  obtain ⟨node, found, _, parent⟩ := exists_of_owned owned
  exact ⟨secluded, node.outline, outline?_of_node? found, parent⟩

theorem ne_part_of_not_belongsTo {id : ElementId} (apart : belongsTo activity id = false)
    (limit : TimeLimit) (part : Part) : id ≠ part.id limit activity := by
  rintro rfl
  rw [belongsTo_part] at apart
  cases apart

/-- A change of a time limit redraws nothing but what belongs to the activity, and from nothing
else. -/
theorem tracks_change (delegate : String) (limit : TimeLimit) (value : Option String)
    (start otherStart : Graph) :
    TimerChange.Tracks (Abreast (Secluded activity) activity start otherStart)
      (limit.change delegate activity value) := by
  have owning : ∀ graph other, Abreast (Secluded activity) activity start otherStart graph other →
      owningContainer graph activity = owningContainer other activity :=
    fun _ _ abreast =>
      owningContainer_congr Node.outline (fun _ => rfl) (fun _ => rfl) abreast.node?_eq
  refine tracks_change_of
    (fun container => Abreast (Anchored activity container) activity start otherStart)
    owning
    (fun graph other container abreast owned => ?_)
    (fun container graph other abreast => ?_) (fun _ _ _ abreast =>
      attributesOf_congr Node.outline (fun _ => rfl) abreast.node?_eq)
    (fun container change => ?_) (fun container limit => ?_) (fun container setting => ?_)
    limit value
  · exact { abreast with
      holds := abreast.holds.anchored owned
      otherHolds := abreast.otherHolds.anchored (owning graph other abreast ▸ owned) }
  · exact { abreast with
      holds := abreast.holds.secluded
      otherHolds := abreast.otherHolds.secluded }
  · refine (redraws_describe change).tracks (fun id outline apart => if_neg ?_) start otherStart
    rintro rfl
    rw [belongsTo_self] at apart
    cases apart
  · refine (redraws_uninstall limit).tracks (fun id outline apart => if_neg ?_) start otherStart
    rw [isPartOf_iff]
    rintro ⟨part, same⟩
    exact ne_part_of_not_belongsTo apart limit part same
  · exact (redraws_install setting).tracks (fun id outline apart =>
      Setting.redraw_of_apart (ne_part_of_not_belongsTo apart setting.limit) outline)
        start otherStart

end Abreast

/-! ## Two changes -/

section Commute

variable {first second : ElementId} {graph : Graph}

/-- A change for one activity answers the same and makes the same of what belongs to the activity
after a change for another one, and it changes nothing else. -/
private theorem change_beside (firstSecluded : Secluded first graph)
    (secondSecluded : Secluded second graph)
    (apart : ∀ id, belongsTo first id = true → belongsTo second id = false)
    (delegate otherDelegate : String) (limit otherLimit : TimeLimit)
    (value otherValue : Option String) :
    let change := limit.change delegate first value
    let other := otherLimit.change otherDelegate second otherValue
    change.answer graph = change.answer (other.left graph) ∧
      Abreast (Secluded first) first graph (other.left graph) (change.left graph)
        (change.left (other.left graph)) := by
  intro change other
  obtain ⟨_, beside⟩ := tracks_change otherDelegate otherLimit otherValue graph graph graph graph
    ⟨secondSecluded, secondSecluded, rfl, rfl, fun _ _ => rfl, fun _ _ => rfl, fun _ _ => rfl⟩
  have kept := Secluded.keeps_change otherDelegate second otherLimit otherValue graph firstSecluded
  exact tracks_change delegate limit value graph (other.left graph) graph (other.left graph)
    ⟨firstSecluded, kept, rfl, rfl, fun id belongs => (beside.frame id (apart id belongs)).symm,
      fun _ _ => rfl, fun _ _ => rfl⟩

/-- Changes of time limits of two activities that share nothing lead to the same process but for
orders, whichever is made first, and both answer the same. -/
theorem changes_comm (firstSecluded : Secluded first graph)
    (secondSecluded : Secluded second graph)
    (apart : ∀ id, belongsTo first id = true → belongsTo second id = false)
    (delegate otherDelegate : String) (limit otherLimit : TimeLimit)
    (value otherValue : Option String) :
    let changeFirst := limit.change delegate first value
    let changeSecond := otherLimit.change otherDelegate second otherValue
    changeFirst.answer graph = changeFirst.answer (changeSecond.left graph) ∧
      changeSecond.answer (changeFirst.left graph) = changeSecond.answer graph ∧
      (changeSecond.left (changeFirst.left graph)).Reordered
        (changeFirst.left (changeSecond.left graph)) := by
  intro changeFirst changeSecond
  have otherApart : ∀ id, belongsTo second id = true → belongsTo first id = false := by
    intro id belongs
    rw [← Bool.not_eq_true]
    intro shared
    rw [apart id shared] at belongs
    cases belongs
  obtain ⟨sameFirst, firstBeside⟩ := change_beside firstSecluded secondSecluded apart delegate
    otherDelegate limit otherLimit value otherValue
  obtain ⟨sameSecond, secondBeside⟩ := change_beside secondSecluded firstSecluded otherApart
    otherDelegate delegate otherLimit limit otherValue value
  refine ⟨sameFirst, sameSecond.symm, WellFormed.reordered secondBeside.otherHolds.wellFormed
    firstBeside.otherHolds.wellFormed (fun id => ?_) ?_⟩
  · cases ofFirst : belongsTo first id with
    | true =>
        rw [secondBeside.otherFrame id (apart id ofFirst), firstBeside.agree id ofFirst]
    | false =>
        cases ofSecond : belongsTo second id with
        | true =>
            rw [firstBeside.otherFrame id ofFirst, secondBeside.agree id ofSecond]
        | false =>
            rw [secondBeside.otherFrame id ofSecond, firstBeside.frame id ofFirst,
              firstBeside.otherFrame id ofFirst, secondBeside.frame id ofSecond]
  · rw [secondBeside.otherRoot, firstBeside.root, firstBeside.otherRoot, secondBeside.root]

end Commute

/-! ## The run as a whole -/

/-- However time limits were changed, the ids of the parts of limits of an activity are taken by
these parts only. -/
theorem Retimed.secluded {start graph : Graph} (retimed : Retimed start graph)
    {activity : ElementId} (secluded : Secluded activity start) : Secluded activity graph := by
  induction retimed with
  | start => exact secluded
  | change _ delegate other limit value inductionHypothesis =>
      exact Secluded.keeps_change delegate other limit value _ inductionHypothesis

/-- On a process that was reached, in which no element has the id of a part of a time limit, time
limits may be changed in any way. Then changes of the limits of two of its activities answer the
same in either order and lead to processes that differ in the order of elements and of children at
most. -/
theorem Retimed.changes_commute {policy : Policy} {root : ElementId} {ledger : Ledger}
    (reached : Reached policy root ledger) (unlimited : Unlimited ledger.graph) {graph : Graph}
    (retimed : Retimed ledger.graph graph) {first second : Node}
    (firstMember : first ∈ ledger.graph.nodes) (secondMember : second ∈ ledger.graph.nodes)
    (firstIsActivity : first.kind.isActivity = true)
    (secondIsActivity : second.kind.isActivity = true) (differ : first.id ≠ second.id)
    (delegate otherDelegate : String) (limit otherLimit : TimeLimit)
    (value otherValue : Option String) :
    let changeFirst := limit.change delegate first.id value
    let changeSecond := otherLimit.change otherDelegate second.id otherValue
    changeFirst.answer graph = changeFirst.answer (changeSecond.left graph) ∧
      changeSecond.answer (changeFirst.left graph) = changeSecond.answer graph ∧
      (changeSecond.left (changeFirst.left graph)).Reordered
        (changeFirst.left (changeSecond.left graph)) := by
  have wellFormed := reached.sound.wellFormed
  have secludedOf : ∀ node ∈ ledger.graph.nodes, node.kind.isActivity = true →
      Secluded node.id graph := fun node member isActivity =>
    retimed.secluded (.initially wellFormed (unlimited node member isActivity))
  have limitable : Limitable ledger.graph second :=
    ⟨wellFormed, unlimited, secondMember, secondIsActivity⟩
  refine changes_comm (secludedOf first firstMember firstIsActivity)
    (secludedOf second secondMember secondIsActivity) (fun id belongs => ?_) delegate otherDelegate
    limit otherLimit value otherValue
  rw [belongsTo, Bool.or_eq_true, decide_eq_true_eq, isPartOfAny_iff] at belongs
  rcases belongs with rfl | ⟨limit, part, rfl⟩
  · have notPart : isPartOfAny second.id first.id = false := by
      rw [← Bool.not_eq_true, isPartOfAny_iff]
      rintro ⟨limit, part, same⟩
      exact limitable.node_id_ne firstMember limit part same
    simp [belongsTo, differ, notPart]
  · exact limitable.separate firstMember firstIsActivity differ limit part

/-- The limits of a task and of the sub-process that it lies in are set in either order; the
elements are stored in the order in which they are installed. -/
theorem changes_commute_of_nested :
    let changeTask := firstWarning.change "delegate" ⟨"T"⟩ (some "1H")
    let changeOuter := deadline.change "delegate" ⟨"S"⟩ (some "3H")
    ∃ graph, Retimed nestedTask.graph graph ∧
      changeTask.answer graph = changeTask.answer (changeOuter.left graph) ∧
      changeOuter.answer (changeTask.left graph) = changeOuter.answer graph ∧
      (changeOuter.left (changeTask.left graph)).Reordered
        (changeTask.left (changeOuter.left graph)) ∧
      (changeOuter.left (changeTask.left graph)).nodes.map Node.id =
        [⟨"P"⟩, ⟨"S"⟩, ⟨"T"⟩, ⟨"T_overtime"⟩, ⟨"T_overtime_service"⟩, ⟨"T_timer"⟩,
          ⟨"T_timer_service"⟩, ⟨"S_overtime"⟩, ⟨"S_overtime_service"⟩] ∧
      (changeTask.left (changeOuter.left graph)).nodes.map Node.id =
        [⟨"P"⟩, ⟨"S"⟩, ⟨"T"⟩, ⟨"T_overtime"⟩, ⟨"T_overtime_service"⟩, ⟨"S_overtime"⟩,
          ⟨"S_overtime_service"⟩, ⟨"T_timer"⟩, ⟨"T_timer_service"⟩] := by
  let task : Node := { Node.alone ⟨"T"⟩ (.task .user) with parent := some ⟨"S"⟩ }
  let outer : Node :=
    { Node.alone ⟨"S"⟩ (.subProcess false) with parent := some ⟨"P"⟩, children := [⟨"T"⟩] }
  have taskMember : task ∈ nestedTask.graph.nodes := by decide
  have outerMember : outer ∈ nestedTask.graph.nodes := by decide
  have retimed : Retimed nestedTask.graph _ :=
    Retimed.start.change "delegate" ⟨"T"⟩ .deadline (some "2H")
  obtain ⟨sameTask, sameOuter, reordered⟩ := Retimed.changes_commute
    (reached_nestedTask ⟨true, true⟩) unlimited_nestedTask retimed taskMember outerMember rfl rfl
    (by decide) "delegate" "delegate" .firstWarning .deadline (some "1H") (some "3H")
  exact ⟨_, retimed, sameTask, sameOuter, reordered, by decide +kernel, by decide +kernel⟩

end BusinessProcess.TimeLimit
