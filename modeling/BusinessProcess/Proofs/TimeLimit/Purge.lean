import BusinessProcess.Proofs.Graph.Twin
import BusinessProcess.Proofs.TimeLimit.Separation
import BusinessProcess.Proofs.TimeLimit.Sync

/-!
# A removed activity takes its time limits along

Two runs are compared: one in which values were entered for the time limits of any nodes, and the
same run without the values for one activity. All along, the processes are the same but for what
belongs to this activity, so they are the same once it is removed with its time limits.
-/

namespace BusinessProcess.TimeLimit

open BusinessProcess.Graph

/-- A value entered for a time limit of a node. -/
structure Entry where
  node : ElementId
  limit : TimeLimit
  value : Option String

/-- The process after values were entered one by one, whatever the changes answer. -/
def enterEach (delegate : String) : List Entry → Graph → Graph
  | [], graph => graph
  | entry :: rest, graph =>
      enterEach delegate rest ((entry.limit.change delegate entry.node entry.value).left graph)

/-- The entries for other nodes than the given one. -/
def entriesBeside (node : ElementId) (entries : List Entry) : List Entry :=
  entries.filter (·.node ≠ node)

/-- Both processes display what was entered, and they are the same but for what belongs to an
activity, for which nothing was entered in the second one. -/
structure Parallel (delegate : String) (start : Graph) (activity : Node) (board otherBoard : Board)
    (graph other : Graph) : Prop where
  displays : Displays delegate start board graph
  otherDisplays : Displays delegate start otherBoard other
  agree : ∀ id, id ≠ activity.id → board id = otherBoard id
  bare : ∀ limit, (otherBoard activity.id).shown limit = none
  same : graph.without (belongsTo activity.id) = other.without (belongsTo activity.id)

section Run

variable {delegate : String} {start : Graph} {activity : Node}
  (limitable : Limitable start activity)

include limitable

/-- The limits of another activity of the start do not belong to the activity. -/
theorem Limitable.separate {other : Node} (member : other ∈ start.nodes)
    (isActivity : other.kind.isActivity = true) (differ : other.id ≠ activity.id)
    (limit : TimeLimit) (part : Part) :
    belongsTo activity.id (part.id limit other.id) = false := by
  have notActivity : part.id limit other.id ≠ activity.id := by
    intro same
    exact limitable.unlimited.node_apart limitable.member other member isActivity limit part
      same.symm
  have notPart : isPartOfAny activity.id (part.id limit other.id) = false := by
    rw [← Bool.not_eq_true, isPartOfAny_iff]
    rintro ⟨_, _, same⟩
    exact differ (Part.id_inj.1 same).2.2
  simp [belongsTo, notActivity, notPart]

namespace Parallel

variable {board otherBoard : Board} {graph other : Graph}

/-- A value entered for another node is entered in both processes. -/
theorem enter (parallel : Parallel delegate start activity board otherBoard graph other)
    {node : Node} (member : node ∈ start.nodes) (differ : node.id ≠ activity.id)
    (limit : TimeLimit) (value : Option String) :
    ∃ board otherBoard, Parallel delegate start activity board otherBoard
      ((limit.change delegate node.id value).left graph)
      ((limit.change delegate node.id value).left other) := by
  have distinct := limitable.wellFormed.distinct
  cases isActivity : node.kind.isActivity with
  | false =>
      have refused := parallel.displays.change_of_not_isActivity limitable.unlimited distinct member
        isActivity limit value
      have otherRefused := parallel.otherDisplays.change_of_not_isActivity limitable.unlimited
        distinct member isActivity limit value
      rw [TimerChange.left, TimerChange.left, refused, otherRefused]
      exact ⟨board, otherBoard, parallel⟩
  | true =>
      have isLimitable : Limitable start node :=
        ⟨limitable.wellFormed, limitable.unlimited, member, isActivity⟩
      obtain ⟨container, held⟩ := limitable.wellFormed.exists_parent member isActivity
      obtain ⟨done, displays⟩ := parallel.displays.change_eq isLimitable held limit value
      obtain ⟨otherDone, otherDisplays⟩ :=
        parallel.otherDisplays.change_eq isLimitable held limit value
      rw [← parallel.agree node.id differ] at otherDone otherDisplays
      rw [TimerChange.left, TimerChange.left, done, otherDone]
      refine ⟨_, _, displays, otherDisplays, fun id apart => ?_, ?_, ?_⟩
      · by_cases isNode : id = node.id
        · rw [isNode, Board.turn_self, Board.turn_self, parallel.agree node.id differ]
        · rw [Board.turn_of_ne board isNode, Board.turn_of_ne otherBoard isNode,
            parallel.agree id apart]
      · rw [Board.turn_of_ne otherBoard differ.symm]
        exact parallel.bare
      · have separate := limitable.separate member isActivity differ
        rw [runSteps_without separate, runSteps_without separate, parallel.same]

/-- A value entered for the activity is entered in one process only. -/
theorem enterOwn (parallel : Parallel delegate start activity board otherBoard graph other)
    (limit : TimeLimit) (value : Option String) :
    ∃ board, Parallel delegate start activity board otherBoard
      ((limit.change delegate activity.id value).left graph) other := by
  obtain ⟨container, held⟩ :=
    limitable.wellFormed.exists_parent limitable.member limitable.isActivity
  obtain ⟨done, displays⟩ := parallel.displays.change_eq limitable held limit value
  rw [TimerChange.left, done]
  refine ⟨_, displays, parallel.otherDisplays, fun id apart => ?_, parallel.bare, ?_⟩
  · rw [Board.turn_of_ne board apart, parallel.agree id apart]
  · rw [without_runSteps, parallel.same]

/-- The run and the run without the entries for the activity stay parallel. -/
theorem enterEach (parallel : Parallel delegate start activity board otherBoard graph other)
    {entries : List Entry} (known : ∀ entry ∈ entries, ∃ node ∈ start.nodes, node.id = entry.node) :
    ∃ board otherBoard, Parallel delegate start activity board otherBoard
      (enterEach delegate entries graph)
      (TimeLimit.enterEach delegate (entriesBeside activity.id entries) other) := by
  induction entries generalizing graph other board otherBoard with
  | nil => exact ⟨board, otherBoard, parallel⟩
  | cons entry rest inductionHypothesis =>
      obtain ⟨node, member, sameId⟩ := known entry (List.mem_cons_self ..)
      have knownRest : ∀ entry ∈ rest, ∃ node ∈ start.nodes, node.id = entry.node :=
        fun later isLater => known later (List.mem_cons_of_mem _ isLater)
      by_cases isOwn : entry.node = activity.id
      · obtain ⟨turned, entered⟩ := parallel.enterOwn limitable entry.limit entry.value
        rw [← isOwn] at entered
        have skipped : entriesBeside activity.id (entry :: rest) =
            entriesBeside activity.id rest :=
          List.filter_cons_of_neg (by simpa using isOwn)
        rw [skipped]
        exact inductionHypothesis entered knownRest
      · obtain ⟨turned, otherTurned, entered⟩ := parallel.enter limitable member
          (by rwa [sameId]) entry.limit entry.value
        rw [sameId] at entered
        have kept : entriesBeside activity.id (entry :: rest) =
            entry :: entriesBeside activity.id rest :=
          List.filter_cons_of_pos (by simpa using isOwn)
        rw [kept]
        exact inductionHypothesis entered knownRest

end Parallel

/-- Removing an activity erases the parts of its limits and then removes its node. -/
theorem Displays.removeActivity_eq {board : Board} {graph : Graph}
    (displays : Displays delegate start board graph) :
    removeActivity activity.id graph =
        TimerChange.removeNode activity.id (graph.without (isPartOfAny activity.id)) ∧
      ∃ later, Displays delegate start later (graph.without (isPartOfAny activity.id)) := by
  obtain ⟨deadlineGone, first⟩ := displays.uninstall limitable .deadline
  obtain ⟨warningGone, second⟩ := first.uninstall limitable .firstWarning
  obtain ⟨loopGone, third⟩ := second.uninstall limitable .loopWarning
  rw [without_isPartOfAny]
  exact ⟨TimeLimit.removeActivity_eq deadlineGone warningGone loopGone, _, third⟩

namespace Parallel

variable {board otherBoard : Board} {graph other : Graph}

/-- Nothing of the limits of the activity is there where nothing was entered for them. -/
theorem other_without (parallel : Parallel delegate start activity board otherBoard graph other) :
    other.without (isPartOfAny activity.id) = other := by
  refine parallel.otherDisplays.wellFormed.tidy.without_eq_self fun id used => ?_
  rw [← Bool.not_eq_true, isPartOfAny_iff]
  rintro ⟨limit, part, rfl⟩
  exact (parallel.otherDisplays.missing_iff limitable limit).2 (parallel.bare limit) part used

/-- Once the limits of the activity are uninstalled, the processes are the same but for it. -/
theorem exists_twins (parallel : Parallel delegate start activity board otherBoard graph other) :
    ∃ held twin, graph.node? activity.id = some held ∧
      Twins (graph.without (isPartOfAny activity.id)) other
        ((graph.prune (isPartOfAny activity.id)) held) twin ∧ held.id = activity.id := by
  have distinct := limitable.wellFormed.distinct
  obtain ⟨held, found, _, parent, _⟩ :=
    parallel.displays.exists_node limitable.unlimited distinct limitable.member
  obtain ⟨twin, twinFound, _, twinParent, _⟩ :=
    parallel.otherDisplays.exists_node limitable.unlimited distinct limitable.member
  have heldId := id_of_node? found
  have kept : isPartOfAny activity.id held.id = false := by
    rw [heldId, ← Bool.not_eq_true, isPartOfAny_iff]
    rintro ⟨limit, part, same⟩
    exact limitable.node_id_ne limitable.member limit part same
  have rest : ∀ process : Graph, process.without (belongsTo activity.id) =
      (process.without (isPartOfAny activity.id)).without (· = activity.id) := by
    intro process
    rw [without_comm, without_without]
    rfl
  refine ⟨held, twin, found, ⟨?_, mem_of_node? twinFound, ?_, ?_, ?_⟩, heldId⟩
  · exact mem_nodes_without.2 ⟨held, mem_of_node? found, kept, rfl⟩
  · exact (id_of_node? twinFound).trans heldId.symm
  · exact twinParent.trans parent.symm
  · rw [prune_id, heldId, ← rest, parallel.same, rest, parallel.other_without limitable]

/-- Removing the activity with its limits leaves what removing its node from the other process
leaves. -/
theorem removeActivity (parallel : Parallel delegate start activity board otherBoard graph other) :
    ∃ held removed twin left, graph.node? activity.id = some held ∧ removed.face = held.face ∧
      TimeLimit.removeActivity activity.id graph = .ok (some removed) left ∧
      other.removeNode activity.id = .ok (some twin, left) := by
  obtain ⟨purged, later, purgedDisplays⟩ := parallel.displays.removeActivity_eq limitable
  obtain ⟨held, twin, found, twins, heldId⟩ := parallel.exists_twins limitable
  have notRoot : activity.id ≠ (graph.without (isPartOfAny activity.id)).root := by
    rw [purgedDisplays.root]
    obtain ⟨container, parent⟩ :=
      limitable.wellFormed.exists_parent limitable.member limitable.isActivity
    exact limitable.wellFormed.id_ne_root limitable.member parent
  rw [← heldId] at notRoot
  obtain ⟨removed, twinRemoved, left, face, _, done, otherDone⟩ := twins.exists_removeNode
    purgedDisplays.wellFormed parallel.otherDisplays.wellFormed notRoot
  rw [prune_id, heldId] at done otherDone
  refine ⟨held, removed, twinRemoved, left, found, face, ?_, otherDone⟩
  rw [purged, TimerChange.removeNode, done]

end Parallel

end Run

/-! ## The run as a whole -/

/-- Whatever was entered for the time limits of the nodes of a reached process, an activity can be
removed with its time limits. The process left is the one that would be left had nothing been
entered for the activity and only its node been removed. -/
theorem removeActivity_of_reached {policy : Policy} {root : ElementId} {ledger : Ledger}
    (reached : Reached policy root ledger) (unlimited : Unlimited ledger.graph) (delegate : String)
    (entries : List Entry)
    (known : ∀ entry ∈ entries, ∃ node ∈ ledger.graph.nodes, node.id = entry.node)
    {activity : Node} (member : activity ∈ ledger.graph.nodes)
    (isActivity : activity.kind.isActivity = true) :
    ∃ held removed twin left,
      (enterEach delegate entries ledger.graph).node? activity.id = some held ∧
      removed.face = held.face ∧
      removeActivity activity.id (enterEach delegate entries ledger.graph) =
        .ok (some removed) left ∧
      (enterEach delegate (entriesBeside activity.id entries) ledger.graph).removeNode
        activity.id = .ok (some twin, left) := by
  have wellFormed := reached.sound.wellFormed
  have limitable : Limitable ledger.graph activity := ⟨wellFormed, unlimited, member, isActivity⟩
  have displays := Displays.initially delegate wellFormed unlimited
  obtain ⟨board, otherBoard, parallel⟩ := Parallel.enterEach limitable
    ⟨displays, displays, fun _ _ => rfl, fun _ => rfl, rfl⟩ known
  exact parallel.removeActivity limitable

/-- A process with a sub-process that holds a task. -/
def nestedTask : Ledger :=
  ((Ledger.new ⟨"P"⟩).record (.addNode ⟨"P"⟩ (.alone ⟨"S"⟩ (.subProcess false)))).record
    (.addNode ⟨"S"⟩ (.alone ⟨"T"⟩ (.task .user)))

theorem reached_nestedTask (policy : Policy) : Reached policy ⟨"P"⟩ nestedTask :=
  .edit (.edit .new (.fresh ⟨"S"⟩ (.subProcess false) ⟨rfl, rfl, rfl, rfl, fun _ => ⟨rfl, rfl⟩⟩))
    (.fresh ⟨"T"⟩ (.task .user) ⟨rfl, rfl, rfl, rfl, fun _ => ⟨rfl, rfl⟩⟩)

theorem unlimited_nestedTask : Unlimited nestedTask.graph := by
  have known : ∀ node ∈ nestedTask.graph.nodes,
      node.id = ⟨"P"⟩ ∨ node.id = ⟨"S"⟩ ∨ node.id = ⟨"T"⟩ := by
    decide
  intro node member isActivity limit part
  rcases known node member with same | same | same <;> rw [same] <;>
    cases limit <;> cases part <;> decide

/-- The limits of a task in a sub-process go with it, whatever was entered in between for the
sub-process, whose own limits stay. -/
theorem removeActivity_of_nested :
    let entries : List Entry :=
      [⟨⟨"T"⟩, .deadline, some "2H"⟩, ⟨⟨"S"⟩, .deadline, some "3H"⟩,
        ⟨⟨"T"⟩, .firstWarning, some "1H"⟩, ⟨⟨"S"⟩, .loopWarning, some "5M"⟩]
    let entriesOfOthers : List Entry :=
      [⟨⟨"S"⟩, .deadline, some "3H"⟩, ⟨⟨"S"⟩, .loopWarning, some "5M"⟩]
    ∃ removed twin left,
      removeActivity ⟨"T"⟩ (enterEach "delegate" entries nestedTask.graph) =
        .ok (some removed) left ∧
      (enterEach "delegate" entriesOfOthers nestedTask.graph).removeNode ⟨"T"⟩ =
        .ok (some twin, left) ∧
      removed.attributes = .ofList [("timeLimit:timeDuration", "2H"),
        ("timeLimit:firstWarnDuration", "1H")] ∧
      left.ids = [⟨"P"⟩, ⟨"S"⟩, ⟨"S_overtime"⟩, ⟨"S_overtime_service"⟩,
        ⟨"S_overtime_service_flow"⟩] := by
  intro entries entriesOfOthers
  let task : Node := { Node.alone ⟨"T"⟩ (.task .user) with parent := some ⟨"S"⟩ }
  have member : task ∈ nestedTask.graph.nodes := by decide
  obtain ⟨held, removed, twin, left, found, face, done, otherDone⟩ :=
    removeActivity_of_reached (reached_nestedTask ⟨true, true⟩) unlimited_nestedTask "delegate"
      entries (by decide) member rfl
  rw [show task.id = ⟨"T"⟩ from rfl] at found done
  refine ⟨removed, twin, left, done, otherDone, ?_, ?_⟩
  · have kept : ((enterEach "delegate" entries nestedTask.graph).node? ⟨"T"⟩).map Node.attributes =
        some (.ofList [("timeLimit:timeDuration", "2H"),
          ("timeLimit:firstWarnDuration", "1H")]) := by
      decide +kernel
    rw [found] at kept
    have same : removed.attributes = held.attributes := (congrArg Node.attributes face :)
    exact same.trans (Option.some.inj kept)
  · have ids : ((removeActivity ⟨"T"⟩).left (enterEach "delegate" entries nestedTask.graph)).ids =
        [⟨"P"⟩, ⟨"S"⟩, ⟨"S_overtime"⟩, ⟨"S_overtime_service"⟩, ⟨"S_overtime_service_flow"⟩] := by
      decide +kernel
    rw [TimerChange.left, done] at ids
    exact ids

end BusinessProcess.TimeLimit
