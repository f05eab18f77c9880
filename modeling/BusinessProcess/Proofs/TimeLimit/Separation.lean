import BusinessProcess.Proofs.Graph.Commute
import BusinessProcess.Proofs.TimeLimit.Simulation

/-!
# Time limits of different activities do not meet

To an activity belong the activity itself and the parts of its time limits. Once all of that is
erased, nothing tells whether time limits of the activity were changed before, and a change of time
limits of another activity can be made before or after.
-/

namespace BusinessProcess.TimeLimit

open BusinessProcess.Graph

/-- Whether the id is that of a part of some time limit of the activity. -/
def isPartOfAny (activity id : ElementId) : Bool :=
  all.any fun limit => isPartOf limit activity id

theorem isPartOfAny_iff {activity id : ElementId} : isPartOfAny activity id = true ↔
    ∃ (limit : TimeLimit) (part : Part), id = part.id limit activity := by
  simp only [isPartOfAny, List.any_eq_true, isPartOf_iff]
  constructor
  · rintro ⟨limit, _, part, same⟩
    exact ⟨limit, part, same⟩
  · rintro ⟨limit, part, same⟩
    exact ⟨limit, by cases limit <;> decide, part, same⟩

/-- Erasing the parts of all limits is erasing those of one limit after the other. -/
theorem without_isPartOfAny (graph : Graph) (activity : ElementId) :
    graph.without (isPartOfAny activity) =
      ((graph.without (isPartOf .deadline activity)).without
        (isPartOf .firstWarning activity)).without (isPartOf .loopWarning activity) := by
  rw [without_without, without_without]
  refine without_congr graph fun id => ?_
  simp only [isPartOfAny, all, List.any_cons, List.any_nil, Bool.or_false]

/-- Whether the id is that of the activity or of a part of one of its time limits. -/
def belongsTo (activity id : ElementId) : Bool :=
  id = activity || isPartOfAny activity id

theorem belongsTo_self (activity : ElementId) : belongsTo activity activity = true := by
  simp [belongsTo]

/-- The parts of its time limits belong to an activity. -/
theorem belongsTo_part (limit : TimeLimit) (part : Part) (activity : ElementId) :
    belongsTo activity (part.id limit activity) = true := by
  simp [belongsTo, isPartOfAny_iff.2 ⟨limit, part, rfl⟩]

/-! ## Installing beside an erasure -/

section Equip

variable {delegate : String} {graph : Graph} {container activity : ElementId} {setting : Setting}
  {doomed : ElementId → Bool}

/-- The id of the flow of a limit stays free while its nodes are held. -/
theorem flow_free (free : ∀ part : Part, part.id setting.limit activity ∉ graph.ids) :
    (serviceFlow activity setting.limit).id ∉ ((graph.hold container
      (.node { boundaryEvent activity setting with parent := some container })).hold container
      (.node { serviceTask activity setting.limit delegate with
        parent := some container })).ids := by
  have flowId : (serviceFlow activity setting.limit).id = Part.flow.id setting.limit activity :=
    serviceFlowId_eq _ _
  have serviceIdEq : (serviceTask activity setting.limit delegate).id =
      Part.service.id setting.limit activity := serviceId_eq _ _
  rw [flowId, (ids_hold _ _ _).mem_iff, List.mem_cons, (ids_hold _ _ _).mem_iff, List.mem_cons]
  rintro (isService | isEvent | used)
  · have same : Part.flow.id setting.limit activity = Part.service.id setting.limit activity :=
      isService.trans serviceIdEq
    cases (Part.id_inj.1 same).1
  · have same : Part.flow.id setting.limit activity = Part.event.id setting.limit activity :=
      isEvent
    cases (Part.id_inj.1 same).1
  · exact free .flow used

/-- A limit whose parts are not erased is installed before or after an erasure. -/
theorem without_equip (free : ∀ part : Part, part.id setting.limit activity ∉ graph.ids)
    (kept : ∀ part : Part, doomed (part.id setting.limit activity) = false) :
    (equip delegate container activity setting graph).without doomed =
      equip delegate container activity setting (graph.without doomed) := by
  have keptService : doomed (serviceTask activity setting.limit delegate).id = false := by
    rw [show (serviceTask activity setting.limit delegate).id = _ from serviceId_eq _ _]
    exact kept .service
  have keptFlow : doomed (serviceFlow activity setting.limit).id = false := by
    rw [show (serviceFlow activity setting.limit).id = _ from serviceFlowId_eq _ _]
    exact kept .flow
  simp only [equip]
  rw [without_linkIncoming keptFlow, without_linkOutgoing keptFlow,
    without_hold_flow { serviceFlow activity setting.limit with parent := some container }
      (flow_free free) keptFlow,
    without_hold_node { serviceTask activity setting.limit delegate with
      parent := some container } keptService fun _ => rfl,
    without_hold_node { boundaryEvent activity setting with parent := some container }
      (kept .event) fun _ => rfl]

/-- Installing a limit whose parts are erased leaves no trace. -/
theorem without_equip_of_doomed
    (free : ∀ part : Part, part.id setting.limit activity ∉ graph.ids)
    (gone : ∀ part : Part, doomed (part.id setting.limit activity) = true) :
    (equip delegate container activity setting graph).without doomed = graph.without doomed := by
  have goneService : doomed (serviceTask activity setting.limit delegate).id = true := by
    rw [show (serviceTask activity setting.limit delegate).id = _ from serviceId_eq _ _]
    exact gone .service
  have goneFlow : doomed (serviceFlow activity setting.limit).id = true := by
    rw [show (serviceFlow activity setting.limit).id = _ from serviceFlowId_eq _ _]
    exact gone .flow
  have goneSource : doomed (serviceFlow activity setting.limit).source = true := gone .event
  have goneTarget : doomed (serviceFlow activity setting.limit).target = true := goneService
  simp only [equip]
  rw [without_updateNode_of_doomed (fun node => node.id_linkIncoming _) goneTarget,
    without_updateNode_of_doomed (fun node => node.id_linkOutgoing _) goneSource,
    without_hold_flow_of_doomed
      { serviceFlow activity setting.limit with parent := some container }
      (flow_free free) goneFlow goneSource goneTarget,
    without_hold_node_of_doomed { serviceTask activity setting.limit delegate with
      parent := some container } goneService,
    without_hold_node_of_doomed
      { boundaryEvent activity setting with parent := some container } (gone .event)]

end Equip

/-! ## Steps beside an erasure -/

section Steps

variable {delegate : String} {container activity : ElementId}

/-- Erasing the parts of a limit frees their ids. -/
theorem free_of_erased (graph : Graph) (limit : TimeLimit) (part : Part) :
    part.id limit activity ∉ (graph.without (isPartOf limit activity)).ids := by
  rw [ids_without, List.mem_filter]
  rintro ⟨_, kept⟩
  rw [isPartOf_iff.2 ⟨part, rfl⟩] at kept
  cases kept

/-- A step for one activity is taken before or after the erasure of what belongs to another
one. -/
theorem Step.run_without {other : ElementId}
    (separate : ∀ (limit : TimeLimit) (part : Part),
      belongsTo activity (part.id limit other) = false) (step : Step) (graph : Graph) :
    (step.run delegate container other graph).without (belongsTo activity) =
      step.run delegate container other (graph.without (belongsTo activity)) := by
  cases step with
  | describe change => exact without_changeAttributes other change
  | uninstall limit => exact without_comm graph _ _
  | install setting =>
      rw [Step.run, without_equip (free_of_erased graph setting.limit) (separate setting.limit),
        without_comm]
      rfl

/-- A step for an activity leaves no trace once what belongs to the activity is erased. -/
theorem Step.without_run (step : Step) (graph : Graph) :
    (step.run delegate container activity graph).without (belongsTo activity) =
      graph.without (belongsTo activity) := by
  have erased : ∀ limit : TimeLimit, (graph.without (isPartOf limit activity)).without
      (belongsTo activity) = graph.without (belongsTo activity) := by
    intro limit
    rw [without_without]
    refine without_congr graph fun id => ?_
    cases isPart : isPartOf limit activity id with
    | false => rfl
    | true =>
        obtain ⟨part, rfl⟩ := isPartOf_iff.1 isPart
        rw [belongsTo_part]
        rfl
  cases step with
  | describe change => exact without_updateNode_of_doomed (fun _ => rfl) (belongsTo_self activity)
  | uninstall limit => exact erased limit
  | install setting =>
      rw [Step.run, without_equip_of_doomed (free_of_erased graph setting.limit)
        fun part => belongsTo_part setting.limit part activity]
      exact erased setting.limit

/-- All steps for one activity are taken before or after the erasure of what belongs to another
one. -/
theorem runSteps_without {other : ElementId}
    (separate : ∀ (limit : TimeLimit) (part : Part),
      belongsTo activity (part.id limit other) = false) (steps : List Step) (graph : Graph) :
    (runSteps delegate container other steps graph).without (belongsTo activity) =
      runSteps delegate container other steps (graph.without (belongsTo activity)) := by
  induction steps generalizing graph with
  | nil => rfl
  | cons step rest inductionHypothesis =>
      rw [runSteps_cons, runSteps_cons, inductionHypothesis, step.run_without separate]

/-- No steps for an activity leave a trace once what belongs to the activity is erased. -/
theorem without_runSteps (steps : List Step) (graph : Graph) :
    (runSteps delegate container activity steps graph).without (belongsTo activity) =
      graph.without (belongsTo activity) := by
  induction steps generalizing graph with
  | nil => rfl
  | cons step rest inductionHypothesis =>
      rw [runSteps_cons, inductionHypothesis, step.without_run]

end Steps

end BusinessProcess.TimeLimit
