import BusinessProcess.Proofs.History.Integrity
import BusinessProcess.Proofs.TimeLimit.Overlay
import BusinessProcess.Proofs.TimeLimit.Sync

/-!
# The sweep restores the process

Where no id of a process has the ending of an element of a time limit, these endings are reserved
for time limits. Changes then leave the core of the process as it is, on whatever elements they are
made, service tasks of other limits included. The sweep goes by kinds and endings; that suffices to
take the whole layer away, with all that is left of limits whose activity is gone.
-/

namespace BusinessProcess.TimeLimit

open BusinessProcess.Graph

/-- The endings of the ids of elements of time limits. -/
def endings : List String :=
  all.map boundaryEnding ++ [serviceEnding, serviceFlowEnding]

/-- Whether an id ends like that of an element of a time limit. -/
def hasEnding (id : ElementId) : Bool :=
  endings.any fun ending => id.endsWith ending

/-- The processes that changes of time limits lead to, made on whatever elements and whatever they
answer. -/
inductive Retimed (start : Graph) : Graph → Prop where
  | start : Retimed start start
  | change {graph : Graph} (retimed : Retimed start graph) (delegate : String)
      (activity : ElementId) (limit : TimeLimit) (value : Option String) :
      Retimed start ((limit.change delegate activity value).left graph)

theorem hasEnding_iff {id : ElementId} :
    hasEnding id = true ↔ ∃ ending ∈ endings, id.endsWith ending = true :=
  List.any_eq_true

/-- Every id of an element of a time limit has one of the endings. -/
theorem covers_hasEnding (activity : ElementId) : Covers hasEnding activity := by
  intro limit part
  rw [hasEnding_iff]
  cases part with
  | event =>
      exact ⟨limit.boundaryEnding, by cases limit <;> decide, ElementId.endsWith_withEnding _ _⟩
  | service =>
      rw [← serviceId_eq]
      exact ⟨serviceEnding, by decide, ElementId.endsWith_withEnding _ _⟩
  | flow =>
      rw [← serviceFlowId_eq]
      exact ⟨serviceFlowEnding, by decide, ElementId.endsWith_withEnding _ _⟩

/-! ## What the sweep recognizes -/

theorem hasEnding_of_isLimitFlow {flow : SequenceFlow} (isLimit : isLimitFlow flow = true) :
    hasEnding flow.id = true :=
  hasEnding_iff.2 ⟨serviceFlowEnding, by decide, isLimit⟩

theorem hasEnding_of_isLimitNode {node : Node} (isLimit : isLimitNode node = true) :
    hasEnding node.id = true := by
  unfold isLimitNode at isLimit
  split at isLimit
  next =>
    obtain ⟨limit, _, ends⟩ := List.any_eq_true.1 isLimit
    exact hasEnding_iff.2 ⟨limit.boundaryEnding, by cases limit <;> decide, ends⟩
  next => exact hasEnding_iff.2 ⟨serviceEnding, by decide, isLimit⟩
  next => cases isLimit

/-- The sweep recognizes every flow of a time limit. -/
theorem LimitFlow.isLimitFlow {reserved : ElementId → Bool} {flow : SequenceFlow}
    (limitFlow : LimitFlow reserved flow) : isLimitFlow flow = true :=
  limitFlow.endsWith

/-- The sweep recognizes every node of a time limit. -/
theorem LimitNode.isLimitNode {graph : Graph} {node : Node} (limitNode : LimitNode graph node) :
    isLimitNode node = true := by
  cases limitNode with
  | event isEvent kind => exact isLimitNode_of_event isEvent kind
  | service isService kind => exact isLimitNode_of_service isService kind

theorem LimitNode.exists_part {graph : Graph} {node : Node} (limitNode : LimitNode graph node) :
    ∃ part : Part, part ≠ .flow ∧ ∃ limit activity, node.id = part.id limit activity := by
  cases limitNode with
  | event isEvent => exact ⟨.event, by decide, _, _, isEvent⟩
  | service isService => exact ⟨.service, by decide, _, _, isService⟩

/-! ## Sweeping -/

section Sweep

variable {reserved : ElementId → Bool} {graph : Graph}

theorem Layered.erased_nil (layered : Layered reserved graph) : Erased reserved graph [] graph :=
  ⟨layered.overlays_self, fun _ used => ⟨used, List.not_mem_nil⟩⟩

theorem Layered.sweepFlows (layered : Layered reserved graph) {ids : List ElementId}
    (parts : ∀ id ∈ ids, reserved id = true ∧ ∃ limit activity, id = Part.flow.id limit activity) :
    ∃ count left, sweepFlows ids graph = .ok count left ∧ Erased reserved graph ids left := by
  induction ids generalizing graph with
  | nil => exact ⟨0, graph, rfl, layered.erased_nil⟩
  | cons id rest inductionHypothesis =>
      obtain ⟨isReserved, limit, activity, rfl⟩ := parts id List.mem_cons_self
      obtain ⟨removed, middle, done, erased⟩ := layered.removeFlow isReserved
      obtain ⟨count, left, swept, more⟩ := inductionHypothesis erased.overlays.layered
        fun other later => parts other (List.mem_cons_of_mem _ later)
      have first : TimerChange.removeFlow (Part.flow.id limit activity) graph =
          .ok removed middle := by
        simp only [TimerChange.removeFlow, done]
      refine ⟨(if removed.isSome then 1 else 0) + count, left, ?_, erased.trans more⟩
      rw [TimeLimit.sweepFlows, TimerChange.bind_of_ok first, TimerChange.bind_of_ok swept]
      rfl

theorem Layered.sweepNodes (layered : Layered reserved graph) {ids : List ElementId}
    (parts : ∀ id ∈ ids, reserved id = true ∧
      ∃ part : Part, part ≠ .flow ∧ ∃ limit activity, id = part.id limit activity) :
    ∃ count left, sweepNodes ids graph = .ok count left ∧ Erased reserved graph ids left := by
  induction ids generalizing graph with
  | nil => exact ⟨0, graph, rfl, layered.erased_nil⟩
  | cons id rest inductionHypothesis =>
      obtain ⟨isReserved, part, isNode, limit, activity, rfl⟩ := parts id List.mem_cons_self
      obtain ⟨removed, middle, done, erased⟩ := layered.removeNode isNode isReserved
      obtain ⟨count, left, swept, more⟩ := inductionHypothesis erased.overlays.layered
        fun other later => parts other (List.mem_cons_of_mem _ later)
      have first : TimerChange.removeNode (part.id limit activity) graph = .ok removed middle := by
        simp only [TimerChange.removeNode, done]
      refine ⟨(if removed.isSome then 1 else 0) + count, left, ?_, erased.trans more⟩
      rw [TimeLimit.sweepNodes, TimerChange.bind_of_ok first, TimerChange.bind_of_ok swept]
      rfl

/-- The sweep takes away all elements whose ids have an ending of time limits, and leaves the
core. -/
theorem Layered.sweep (layered : Layered hasEnding graph) :
    ∃ count left, sweep graph = .ok count left ∧ Overlays hasEnding graph left ∧
      ∀ id ∈ left.ids, hasEnding id = false := by
  have flowParts : ∀ id ∈ (graph.flows.filter isLimitFlow).map SequenceFlow.id,
      hasEnding id = true ∧ ∃ limit activity, id = Part.flow.id limit activity := by
    intro id isListed
    obtain ⟨flow, isSwept, rfl⟩ := List.mem_map.1 isListed
    obtain ⟨member, isLimit⟩ := List.mem_filter.1 isSwept
    have isReserved := hasEnding_of_isLimitFlow isLimit
    exact ⟨isReserved, (layered.flows flow member isReserved).id⟩
  have nodeParts : ∀ id ∈ (graph.nodes.filter isLimitNode).map Node.id, hasEnding id = true ∧
      ∃ part : Part, part ≠ .flow ∧ ∃ limit activity, id = part.id limit activity := by
    intro id isListed
    obtain ⟨node, isSwept, rfl⟩ := List.mem_map.1 isListed
    obtain ⟨member, isLimit⟩ := List.mem_filter.1 isSwept
    have isReserved := hasEnding_of_isLimitNode isLimit
    exact ⟨isReserved, (layered.nodes node member isReserved).exists_part⟩
  obtain ⟨flows, middle, flowsSwept, flowsErased⟩ := layered.sweepFlows flowParts
  obtain ⟨nodes, left, nodesSwept, nodesErased⟩ :=
    flowsErased.overlays.layered.sweepNodes nodeParts
  have erased := flowsErased.trans nodesErased
  refine ⟨flows + nodes, left, ?_, erased.overlays, fun id used => ?_⟩
  · rw [TimeLimit.sweep, TimerChange.bind_of_ok (TimerChange.get_eq graph),
      TimerChange.bind_of_ok flowsSwept, TimerChange.bind_of_ok nodesSwept]
    rfl
  · -- What has an ending was recognized, and what was recognized is gone.
    obtain ⟨usedBefore, notSwept⟩ := erased.ids id used
    rw [List.mem_append, not_or] at notSwept
    rw [← Bool.not_eq_true]
    intro isReserved
    rcases List.mem_append.1 usedBefore with isNode | isFlow
    · obtain ⟨node, member, rfl⟩ := List.mem_map.1 isNode
      have isLimit := (layered.nodes node member isReserved).isLimitNode
      exact notSwept.2 (List.mem_map_of_mem (List.mem_filter.2 ⟨member, isLimit⟩))
    · obtain ⟨flow, member, rfl⟩ := List.mem_map.1 isFlow
      have isLimit := (layered.flows flow member isReserved).isLimitFlow
      exact notSwept.1 (List.mem_map_of_mem (List.mem_filter.2 ⟨member, isLimit⟩))

end Sweep

/-! ## The run as a whole -/

/-- However time limits were changed, the process overlays the start. -/
theorem Retimed.overlays {start graph : Graph} (wellFormed : start.WellFormed)
    (unended : ∀ id ∈ start.ids, hasEnding id = false) (retimed : Retimed start graph) :
    Overlays hasEnding start graph := by
  induction retimed with
  | start => exact (Layered.initially wellFormed unended).overlays_self
  | change _ delegate activity limit value inductionHypothesis =>
      exact inductionHypothesis.trans
        (inductionHypothesis.layered.change_left (covers_hasEnding activity) delegate limit value)

/-- On a process that was reached, in which no id ends like that of an element of a time limit,
changes of time limits fail only where there is no activity, and the sweep gives back the process as
it was before all of them, but for the values that its activities keep for their limits. -/
theorem Retimed.swept {policy : Policy} {root : ElementId} {ledger : Ledger}
    (reached : Reached policy root ledger)
    (unended : ∀ id ∈ ledger.graph.ids, hasEnding id = false) {graph : Graph}
    (retimed : Retimed ledger.graph graph) :
    (∀ (delegate : String) (activity : ElementId) (limit : TimeLimit) (value : Option String),
      (∃ outcome left, limit.change delegate activity value graph = .ok outcome left) ∨
        limit.change delegate activity value graph = .error (.unknownElement activity) graph ∨
        limit.change delegate activity value graph = .error (.notAnActivity activity) graph) ∧
      ∃ count left, sweep graph = .ok count left ∧
        left.forgetLimits = ledger.graph.forgetLimits := by
  have wellFormed := reached.sound.wellFormed
  have overlays := retimed.overlays wellFormed unended
  constructor
  · intro delegate activity limit value
    refine (overlays.layered.change (covers_hasEnding activity) delegate limit value).imp_left ?_
    rintro ⟨outcome, left, done, _⟩
    exact ⟨outcome, left, done⟩
  · obtain ⟨count, left, done, last, noneLeft⟩ := overlays.layered.sweep
    refine ⟨count, left, done, ?_⟩
    rw [← last.layered.wellFormed.tidy.core_eq noneLeft, ← wellFormed.tidy.core_eq unended]
    exact last.core_eq.trans overlays.core_eq

/-- A deadline on the service task of a deadline stays behind when that one is cleared, and the
sweep takes it away. -/
theorem swept_of_orphaned : ∃ graph, Retimed soleTask.graph graph ∧
    graph.ids = [⟨"P"⟩, ⟨"T"⟩, ⟨"T_overtime_service_overtime"⟩,
      ⟨"T_overtime_service_overtime_service"⟩, ⟨"T_overtime_service_overtime_service_flow"⟩] ∧
    ∃ count left, sweep graph = .ok count left ∧
      left.forgetLimits = soleTask.graph.forgetLimits := by
  have retimed := ((Retimed.start.change "delegate" ⟨"T"⟩ .deadline (some "2H")).change "delegate"
    ⟨"T_overtime_service"⟩ .deadline (some "1H") : Retimed soleTask.graph _).change "delegate"
    ⟨"T"⟩ .deadline none
  exact ⟨_, retimed, by decide +kernel,
    (retimed.swept (reached_soleTask ⟨true, true⟩) (by decide)).2⟩

end BusinessProcess.TimeLimit
