import BusinessProcess.Proofs.History.Integrity
import BusinessProcess.Proofs.TimeLimit.Simulation

/-!
# Time limits stay in step with the values kept

The time limits of a process may be changed any number of times, and the changes may be skipped or
refused. Afterwards each activity still shows the timers that follow from the values it keeps. The
invariant of the run is that the process displays a board of dials that are in step; the process
itself is only looked at in the end.
-/

namespace BusinessProcess.TimeLimit

open BusinessProcess.Graph

/-! ## Runs of changes -/

/-- No activity of the process keeps a value for a time limit. -/
def Untimed (start : Graph) : Prop :=
  ∀ activity ∈ start.nodes, activity.kind.isActivity = true →
    ∀ limit : TimeLimit, activity.attributes.get? limit.attributeKey = none

/-- The processes that changes of the time limits of nodes of `start` lead to, whatever the changes
answer. -/
inductive Adjusted (delegate : String) (start : Graph) : Graph → Prop where
  | start : Adjusted delegate start start
  | change {graph : Graph} {node : Node} (adjusted : Adjusted delegate start graph)
      (member : node ∈ start.nodes) (limit : TimeLimit) (value : Option String) :
      Adjusted delegate start ((limit.change delegate node.id value).left graph)

/-- The process after values for the time limits of one activity were entered one by one. -/
def enterAll (delegate : String) (activity : ElementId) :
    List (TimeLimit × Option String) → Graph → Graph
  | [], graph => graph
  | (limit, value) :: rest, graph =>
      enterAll delegate activity rest ((limit.change delegate activity value).left graph)

/-- Entering values one by one is a run of changes. -/
theorem Adjusted.enterAll {delegate : String} {start graph : Graph} {node : Node}
    (adjusted : Adjusted delegate start graph) (member : node ∈ start.nodes)
    (entries : List (TimeLimit × Option String)) :
    Adjusted delegate start (enterAll delegate node.id entries graph) := by
  induction entries generalizing graph with
  | nil => exact adjusted
  | cons entry rest inductionHypothesis =>
      exact inductionHypothesis (adjusted.change member entry.1 entry.2)

/-- A process with a single task. -/
def soleTask : Ledger :=
  (Ledger.new ⟨"P"⟩).record (.addNode ⟨"P"⟩ (.alone ⟨"T"⟩ (.task .user)))

theorem reached_soleTask (policy : Policy) : Reached policy ⟨"P"⟩ soleTask :=
  .edit .new (.fresh ⟨"T"⟩ (.task .user) ⟨rfl, rfl, rfl, rfl, fun _ => ⟨rfl, rfl⟩⟩)

/-- The one activity of a process with a single task is this task. -/
theorem eq_of_mem_soleTask {node : Node} (member : node ∈ soleTask.graph.nodes)
    (isActivity : node.kind.isActivity = true) :
    node = { Node.alone ⟨"T"⟩ (.task .user) with parent := some ⟨"P"⟩ } := by
  have nodes : soleTask.graph.nodes = [{ Node.alone ⟨"P"⟩ .process with children := [⟨"T"⟩] },
      { Node.alone ⟨"T"⟩ (.task .user) with parent := some ⟨"P"⟩ }] := by
    decide
  rw [nodes, List.mem_cons, List.mem_singleton] at member
  rcases member with rfl | rfl
  · cases isActivity
  · rfl

theorem unlimited_soleTask : Unlimited soleTask.graph := by
  intro node member isActivity limit part
  rw [eq_of_mem_soleTask member isActivity]
  cases limit <;> cases part <;> decide

theorem untimed_soleTask : Untimed soleTask.graph := by
  intro node member isActivity limit
  rw [eq_of_mem_soleTask member isActivity]
  rfl

/-- The process displays dials that are in step, with values that were accepted. -/
structure Tuned (delegate : String) (start : Graph) (board : Board) (graph : Graph) : Prop where
  displays : Displays delegate start board graph
  inStep : ∀ activity ∈ start.nodes, activity.kind.isActivity = true →
    (board activity.id).InStep
  accepted : ∀ activity ∈ start.nodes, activity.kind.isActivity = true →
    (board activity.id).Accepted

section Run

variable {delegate : String} {start graph : Graph} {board : Board}
  (wellFormed : start.WellFormed) (unlimited : Unlimited start)

include wellFormed unlimited

/-- A process without time limits displays dials that show nothing. -/
theorem Tuned.initially (delegate : String) (untimed : Untimed start) :
    Tuned delegate start (fun id => ⟨attributesOf start id, fun _ => none⟩) start := by
  have attributes : ∀ activity ∈ start.nodes, attributesOf start activity.id =
      activity.attributes := by
    intro activity member
    simp only [attributesOf, node?_of_mem wellFormed.distinct member]
  refine ⟨.initially delegate wellFormed unlimited, ?_, ?_⟩
  · intro activity member isActivity
    have nothing : ∀ limit, expected? (attributesOf start activity.id) limit = none := by
      intro limit
      refine expected?_of_stored?_eq_none ?_
      rw [attributes activity member, stored?, Attributes.filled?,
        untimed activity member isActivity limit]
      rfl
    exact ⟨(nothing .deadline).symm, (nothing .firstWarning).symm, .inl (nothing .loopWarning).symm⟩
  · intro activity member isActivity
    have absent : ∀ limit : TimeLimit,
        (attributesOf start activity.id).get? limit.attributeKey = none := by
      rw [attributes activity member]
      exact untimed activity member isActivity
    constructor
    · intro limit raw present
      cases (absent limit).symm.trans present
    · intro raw present
      cases (absent .deadline).symm.trans present

/-- A change of a time limit turns a dial, which stays in step. -/
theorem Tuned.change (tuned : Tuned delegate start board graph) {node : Node}
    (member : node ∈ start.nodes) (limit : TimeLimit) (value : Option String) :
    ∃ later, Tuned delegate start later ((limit.change delegate node.id value).left graph) := by
  cases isActivity : node.kind.isActivity with
  | false =>
      refine ⟨board, ?_⟩
      rw [TimerChange.left, tuned.displays.change_of_not_isActivity unlimited wellFormed.distinct
        member isActivity]
      exact tuned
  | true =>
      obtain ⟨left, done, displays⟩ :=
        tuned.displays.change ⟨wellFormed, unlimited, member, isActivity⟩ limit value
      rw [TimerChange.left, done]
      refine ⟨_, displays, ?_, ?_⟩
      · intro activity activityMember activityKind
        by_cases same : activity.id = node.id
        · rw [same, Board.turn_self]
          exact (tuned.inStep node member isActivity).enter limit value
        · rw [Board.turn_of_ne board same]
          exact tuned.inStep activity activityMember activityKind
      · intro activity activityMember activityKind
        by_cases same : activity.id = node.id
        · rw [same, Board.turn_self]
          exact (tuned.accepted node member isActivity).enter limit value
        · rw [Board.turn_of_ne board same]
          exact tuned.accepted activity activityMember activityKind

/-- However the time limits were changed, the process displays dials that are in step. -/
theorem Adjusted.exists_board (untimed : Untimed start)
    (adjusted : Adjusted delegate start graph) : ∃ board, Tuned delegate start board graph := by
  induction adjusted with
  | start => exact ⟨_, .initially wellFormed unlimited delegate untimed⟩
  | change _ member limit value inductionHypothesis =>
      obtain ⟨board, tuned⟩ := inductionHypothesis
      exact tuned.change wellFormed unlimited member limit value

end Run

/-! ## What a process shows -/

/-- No part of the time limit is there. -/
def Missing (graph : Graph) (activity : ElementId) (limit : TimeLimit) : Prop :=
  ∀ part : Part, part.id limit activity ∉ graph.ids

/-- All parts of the time limit are there, beside the activity and connected. -/
structure Installed (delegate : String) (graph : Graph) (activity : Node) (limit : TimeLimit)
    (expression : TimerExpression) : Prop where
  event : ∃ event, graph.node? (limit.boundaryId activity.id) = some event ∧
    event.kind = .event .boundary ∧ event.parent = activity.parent ∧
    event.attributes = .ofList [("cancelActivity", "false"), ("attachedToRef", activity.id.text)] ∧
    event.definitions = [.timer expression]
  service : ∃ service, graph.node? (serviceId (limit.boundaryId activity.id)) = some service ∧
    service.kind = .task .service ∧ service.parent = activity.parent ∧
    service.attributes = .ofList [("flowable:delegateExpression", delegate)]
  flow : ∃ flow, graph.flow? (serviceFlowId (limit.boundaryId activity.id)) = some flow ∧
    flow.parent = activity.parent ∧ flow.source = limit.boundaryId activity.id ∧
    flow.target = serviceId (limit.boundaryId activity.id)

/-- The timers of the activity follow from the values that it keeps. -/
structure InSync (delegate : String) (graph : Graph) (activity : Node) : Prop where
  /-- What is there has been worked out from a value that is kept. -/
  sound : ∀ limit, Missing graph activity.id limit ∨ ∃ raw expression,
    activity.attributes.get? limit.attributeKey = some raw ∧
      derive activity.attributes limit raw = .ok expression ∧
      Installed delegate graph activity limit expression
  /-- What is missing cannot be worked out, or the limit before it cannot. -/
  complete : ∀ limit, Missing graph activity.id limit →
    expected? activity.attributes limit = none ∨
      (limit = .loopWarning ∧ expected? activity.attributes .firstWarning = none)

namespace Displays

variable {delegate : String} {start graph : Graph} {board : Board} {activity held : Node}

/-- A timer that the dial does not show has no part in the process. -/
theorem missing_iff (displays : Displays delegate start board graph)
    (limitable : Limitable start activity) (limit : TimeLimit) :
    Missing graph activity.id limit ↔ (board activity.id).shown limit = none := by
  have free : ∀ part : Part, part.id limit activity.id ∉ graph.ids ↔
      (board activity.id).shown limit = none := by
    intro part
    rw [← face?_eq_none_iff, displays.face?_of_part limitable limit part,
      Option.map_eq_none_iff]
  exact ⟨fun missing => (free .event).1 (missing .event), fun absent part => (free part).2 absent⟩

/-- A timer that the dial shows has all its parts in the process. -/
theorem installed (displays : Displays delegate start board graph)
    (limitable : Limitable start activity) (sameId : held.id = activity.id)
    (sameParent : held.parent = activity.parent) {limit : TimeLimit} {expression : TimerExpression}
    (shown : (board activity.id).shown limit = some expression) :
    Installed delegate graph held limit expression := by
  have face : ∀ part : Part, graph.face? (part.id limit activity.id) =
      some (part.face delegate activity limit expression) := by
    intro part
    rw [displays.face?_of_part limitable limit part, shown, Option.map_some]
  constructor <;> rw [sameId, sameParent]
  · obtain ⟨event, found, same⟩ := node?_of_face? (face .event)
    exact ⟨event, found, (congrArg Node.kind same :), (congrArg Node.parent same :),
      (congrArg Node.attributes same :), (congrArg Node.definitions same :)⟩
  · obtain ⟨service, found, same⟩ := node?_of_face? (face .service)
    rw [serviceId_eq]
    exact ⟨service, found, (congrArg Node.kind same :), (congrArg Node.parent same :),
      (congrArg Node.attributes same :)⟩
  · have found := flow?_of_face? (face .flow)
    rw [serviceFlowId_eq]
    exact ⟨_, found, rfl, rfl, rfl⟩

end Displays

/-- The timers of an activity follow from the values kept where its dial is in step. -/
theorem Tuned.inSync {delegate : String} {start graph : Graph} {board : Board}
    {activity held : Node} (tuned : Tuned delegate start board graph)
    (limitable : Limitable start activity) (sameId : held.id = activity.id)
    (sameParent : held.parent = activity.parent)
    (attributes : held.attributes = (board activity.id).attributes) :
    InSync delegate graph held := by
  have inStep := tuned.inStep activity limitable.member limitable.isActivity
  have accepted := tuned.accepted activity limitable.member limitable.isActivity
  constructor
  · intro limit
    rw [sameId, tuned.displays.missing_iff limitable limit]
    cases shown : (board activity.id).shown limit with
    | none => exact .inl rfl
    | some expression =>
        obtain ⟨raw, kept, done⟩ := expected?_eq_some_iff.1 (inStep.expected?_eq_some shown)
        rw [accepted.stored?_eq] at kept
        rw [attributes]
        exact .inr ⟨raw, expression, kept, done,
          tuned.displays.installed limitable sameId sameParent shown⟩
  · intro limit
    rw [sameId, tuned.displays.missing_iff limitable limit, attributes]
    exact inStep.expected?_eq_none

/-! ## The run as a whole -/

/-- However the time limits of the nodes of a reached process were changed, no further change of one
is refused, unless the node is no activity; and each activity, where it was at the start, shows the
timers that follow from the values it keeps. -/
theorem Adjusted.timers_follow_values {policy : Policy} {root : ElementId} {ledger : Ledger}
    (reached : Reached policy root ledger) (unlimited : Unlimited ledger.graph)
    (untimed : Untimed ledger.graph) {delegate : String} {graph : Graph}
    (adjusted : Adjusted delegate ledger.graph graph) {node : Node}
    (member : node ∈ ledger.graph.nodes) :
    (node.kind.isActivity = false → ∀ (limit : TimeLimit) (value : Option String),
      limit.change delegate node.id value graph = .error (.notAnActivity node.id) graph) ∧
      (node.kind.isActivity = true →
        (∀ (limit : TimeLimit) (value : Option String), ∃ outcome left,
          limit.change delegate node.id value graph = .ok outcome left) ∧
        ∃ held, graph.node? node.id = some held ∧ held.kind = node.kind ∧
          held.parent = node.parent ∧ held.parent.isSome = true ∧
          InSync delegate graph held) := by
  have wellFormed := reached.sound.wellFormed
  obtain ⟨board, tuned⟩ := adjusted.exists_board wellFormed unlimited untimed
  constructor
  · intro isOther limit value
    exact tuned.displays.change_of_not_isActivity unlimited wellFormed.distinct member isOther
      limit value
  · intro isActivity
    have limitable : Limitable ledger.graph node := ⟨wellFormed, unlimited, member, isActivity⟩
    refine ⟨fun limit value => ?_, ?_⟩
    · obtain ⟨left, done, _⟩ := tuned.displays.change limitable limit value
      exact ⟨_, left, done⟩
    · obtain ⟨container, parent, _⟩ := tuned.displays.exists_container limitable
      obtain ⟨held, found, kind, sameParent, attributes⟩ :=
        tuned.displays.exists_node unlimited wellFormed.distinct member
      refine ⟨held, found, kind, sameParent, by rw [sameParent, parent]; rfl, ?_⟩
      exact tuned.inSync limitable (id_of_node? found) sameParent (attributes isActivity)

/-- A task whose warnings came first without effect, and whose deadline was then set, cleared and
set again, shows the timers of the values that it keeps. -/
theorem inSync_of_reset : ∃ graph, Adjusted "delegate" soleTask.graph graph ∧
    graph.ids = [⟨"P"⟩, ⟨"T"⟩, ⟨"T_overtime"⟩, ⟨"T_overtime_service"⟩, ⟨"T_timer"⟩,
      ⟨"T_timer_service"⟩, ⟨"T_overtime_service_flow"⟩, ⟨"T_timer_service_flow"⟩] ∧
    ∃ held, graph.node? ⟨"T"⟩ = some held ∧ InSync "delegate" graph held := by
  let task : Node := { Node.alone ⟨"T"⟩ (.task .user) with parent := some ⟨"P"⟩ }
  have member : task ∈ soleTask.graph.nodes := by decide
  have adjusted := (Adjusted.start : Adjusted "delegate" soleTask.graph _).enterAll member
    [(.loopWarning, some "20M"), (.deadline, some "2H"), (.firstWarning, some "1H"),
      (.deadline, none), (.deadline, some "3H")]
  obtain ⟨held, found, _, _, _, inSync⟩ :=
    ((adjusted.timers_follow_values (reached_soleTask ⟨true, true⟩) unlimited_soleTask
      untimed_soleTask member).2 rfl).2
  exact ⟨_, adjusted, by decide +kernel, held, found, inSync⟩

end BusinessProcess.TimeLimit
