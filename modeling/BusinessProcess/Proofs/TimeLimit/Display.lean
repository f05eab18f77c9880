import BusinessProcess.Proofs.Graph.Face
import BusinessProcess.Proofs.TimeLimit.Dial
import BusinessProcess.Proofs.TimeLimit.Part
import Mathlib.Logic.Function.Basic

/-!
# Processes that display dials

A process displays a board of dials, one for each of its activities, if the parts of every time
limit are there exactly if the dial shows a timer, and everything else is as it was at the start.
Each step of a change of time limits turns the dial of its activity and no other one.
-/

namespace BusinessProcess.TimeLimit

open BusinessProcess.Graph

/-- What a part of a time limit of `activity` shows by itself. -/
def Part.face (delegate : String) (activity : Node) (limit : TimeLimit)
    (expression : TimerExpression) : Part → Element
  | .event => .node
      { boundaryEvent activity.id ⟨limit, "", expression⟩ with parent := activity.parent }
  | .service => .node { serviceTask activity.id limit delegate with parent := activity.parent }
  | .flow => .flow { serviceFlow activity.id limit with parent := activity.parent }

@[simp] theorem Part.id_face (delegate : String) (activity : Node) (limit : TimeLimit)
    (expression : TimerExpression) (part : Part) :
    (part.face delegate activity limit expression).id = part.id limit activity.id := by
  cases part with
  | event => rfl
  | service => exact serviceId_eq limit activity.id
  | flow => exact serviceFlowId_eq limit activity.id

/-- A dial for each activity. -/
abbrev Board :=
  ElementId → Dial

namespace Board

/-- The board with one dial turned. -/
def turn (board : Board) (activity : ElementId) (change : Dial → Dial) : Board :=
  Function.update board activity (change (board activity))

@[simp] theorem turn_self (board : Board) (activity : ElementId) (change : Dial → Dial) :
    board.turn activity change activity = change (board activity) :=
  Function.update_self _ _ _

theorem turn_of_ne (board : Board) {activity other : ElementId} (differs : other ≠ activity)
    (change : Dial → Dial) : board.turn activity change other = board other :=
  Function.update_of_ne differs _ _

/-- Turning a dial twice is turning it once. -/
theorem turn_turn (board : Board) (activity : ElementId) (first second : Dial → Dial) :
    (board.turn activity first).turn activity second =
      board.turn activity fun dial => second (first dial) := by
  simp only [turn, Function.update_self, Function.update_idem]

/-- Changes that agree on the dial turn it alike. -/
theorem turn_congr (board : Board) {activity : ElementId} {first second : Dial → Dial}
    (same : first (board activity) = second (board activity)) :
    board.turn activity first = board.turn activity second := by
  rw [turn, turn, same]

/-- Turning a dial to where it is changes nothing. -/
theorem turn_eq_self (board : Board) {activity : ElementId} {change : Dial → Dial}
    (same : change (board activity) = board activity) : board.turn activity change = board := by
  rw [turn, same, Function.update_eq_self]

/-- The node with its attributes as on the board, if it is an activity. -/
def paintNode (board : Board) (node : Node) : Node :=
  if node.kind.isActivity then { node with attributes := (board node.id).attributes } else node

/-- The element with its attributes as on the board, if it is an activity. -/
def paint (board : Board) : Element → Element :=
  Element.mapNode board.paintNode

@[simp] theorem kind_paintNode (board : Board) (node : Node) :
    (board.paintNode node).kind = node.kind := by
  unfold paintNode
  split <;> rfl

@[simp] theorem parent_paintNode (board : Board) (node : Node) :
    (board.paintNode node).parent = node.parent := by
  unfold paintNode
  split <;> rfl

theorem attributes_paintNode (board : Board) {node : Node}
    (isActivity : node.kind.isActivity = true) :
    (board.paintNode node).attributes = (board node.id).attributes := by
  rw [paintNode, if_pos isActivity]

/-- Turning a dial without changing the values kept does not change how elements are painted. -/
theorem paint_turn (board : Board) (activity : ElementId) {change : Dial → Dial}
    (keeps : ∀ dial, (change dial).attributes = dial.attributes) :
    (board.turn activity change).paint = board.paint := by
  have same : ∀ id, (board.turn activity change id).attributes = (board id).attributes := by
    intro id
    by_cases isActivity : id = activity
    · rw [isActivity, turn_self, keeps]
    · rw [turn_of_ne board isActivity]
  have nodes : (board.turn activity change).paintNode = board.paintNode := by
    funext node
    simp only [paintNode, same]
  rw [paint, paint, nodes]

end Board

/-- The parts of a time limit of an activity of the process have other ids than its elements. -/
def Unlimited (start : Graph) : Prop :=
  ∀ activity ∈ start.nodes, activity.kind.isActivity = true →
    ∀ (limit : TimeLimit) (part : Part), part.id limit activity.id ∉ start.ids

/-- The id is that of no part of a time limit of an activity of the process. -/
def Apart (start : Graph) (id : ElementId) : Prop :=
  ∀ activity ∈ start.nodes, activity.kind.isActivity = true →
    ∀ (limit : TimeLimit) (part : Part), id ≠ part.id limit activity.id

/-- The process shows the timers of the board, and else what it showed at the start. -/
structure Displays (delegate : String) (start : Graph) (board : Board) (graph : Graph) : Prop where
  wellFormed : graph.WellFormed
  root : graph.root = start.root
  /-- All parts of a limit are there, with its timer, or none. -/
  parts : ∀ activity ∈ start.nodes, activity.kind.isActivity = true →
    ∀ (limit : TimeLimit) (part : Part), graph.face? (part.id limit activity.id) =
      ((board activity.id).shown limit).map fun expression =>
        part.face delegate activity limit expression
  /-- Everything else is as at the start, but for the values kept for the limits. -/
  others : ∀ id, Apart start id → graph.face? id = (start.face? id).map board.paint

/-- What was there at the start is no part of a time limit. -/
theorem Unlimited.apart {start : Graph} (unlimited : Unlimited start) {id : ElementId}
    (used : id ∈ start.ids) : Apart start id := by
  rintro activity member isActivity limit part rfl
  exact unlimited activity member isActivity limit part used

theorem Unlimited.node_apart {start : Graph} (unlimited : Unlimited start) {node : Node}
    (member : node ∈ start.nodes) : Apart start node.id :=
  unlimited.apart (id_mem_of_node member)

/-- An activity of a well-formed process without parts of time limits. -/
structure Limitable (start : Graph) (activity : Node) : Prop where
  wellFormed : start.WellFormed
  unlimited : Unlimited start
  member : activity ∈ start.nodes
  isActivity : activity.kind.isActivity = true

/-- A node of the start is no part of a time limit of an activity. -/
theorem Limitable.node_id_ne {start : Graph} {activity node : Node}
    (limitable : Limitable start activity) (member : node ∈ start.nodes) (limit : TimeLimit)
    (part : Part) : node.id ≠ part.id limit activity.id :=
  limitable.unlimited.node_apart member activity limitable.member limitable.isActivity limit part

namespace Displays

variable {delegate : String} {start graph : Graph} {board : Board}

/-! ## What is displayed -/

/-- The parts of a time limit show the timer that the dial shows. -/
theorem face?_of_part (displays : Displays delegate start board graph) {activity : Node}
    (limitable : Limitable start activity) (limit : TimeLimit) (part : Part) :
    graph.face? (part.id limit activity.id) =
      ((board activity.id).shown limit).map fun expression =>
        part.face delegate activity limit expression :=
  displays.parts activity limitable.member limitable.isActivity limit part

/-- A node of the start shows what it showed, but for the attributes of an activity. -/
theorem face?_of_node (displays : Displays delegate start board graph) (unlimited : Unlimited start)
    (distinct : start.ids.Nodup) {node : Node} (member : node ∈ start.nodes) :
    graph.face? node.id = some (.node (board.paintNode node.face)) := by
  rw [displays.others node.id (unlimited.node_apart member), face?_of_node_mem distinct member]
  rfl

/-- A node of the start is still there, with its kind and its parent, and the attributes of an
activity are those on the board. -/
theorem exists_node (displays : Displays delegate start board graph) (unlimited : Unlimited start)
    (distinct : start.ids.Nodup) {node : Node} (member : node ∈ start.nodes) :
    ∃ held, graph.node? node.id = some held ∧ held.kind = node.kind ∧ held.parent = node.parent ∧
      (node.kind.isActivity = true → held.attributes = (board node.id).attributes) := by
  obtain ⟨held, found, face⟩ :=
    node?_of_face? (displays.face?_of_node unlimited distinct member)
  have kind : held.kind = (board.paintNode node.face).kind := (congrArg Node.kind face :)
  have parent : held.parent = (board.paintNode node.face).parent := (congrArg Node.parent face :)
  have attributes : held.attributes = (board.paintNode node.face).attributes :=
    (congrArg Node.attributes face :)
  rw [Board.kind_paintNode] at kind
  rw [Board.parent_paintNode] at parent
  exact ⟨held, found, kind, parent, fun isActivity =>
    attributes.trans (board.attributes_paintNode isActivity)⟩

/-- A displayed flow belongs to a time limit or was there at the start. -/
theorem flow_cases (displays : Displays delegate start board graph) {flow : SequenceFlow}
    (member : flow ∈ graph.flows) :
    (∃ activity ∈ start.nodes, activity.kind.isActivity = true ∧ ∃ limit,
      flow.id = Part.flow.id limit activity.id ∧
        flow.source = Part.event.id limit activity.id ∧
        flow.target = Part.service.id limit activity.id) ∨
      (Apart start flow.id ∧ flow ∈ start.flows) := by
  have shown := face?_of_flow_mem displays.wellFormed.distinct member
  by_cases apart : Apart start flow.id
  · refine .inr ⟨apart, ?_⟩
    rw [displays.others flow.id apart] at shown
    obtain ⟨face, found, painted⟩ := Option.map_eq_some_iff.1 shown
    cases face with
    | node node => cases painted
    | flow other =>
        cases painted
        exact mem_of_flow? (flow?_of_face? found)
  · refine .inl ?_
    simp only [Apart, not_forall, not_not] at apart
    obtain ⟨activity, activityMember, isActivity, limit, part, same⟩ := apart
    refine ⟨activity, activityMember, isActivity, limit, ?_⟩
    rw [same, displays.parts activity activityMember isActivity limit part] at shown
    obtain ⟨expression, _, face⟩ := Option.map_eq_some_iff.1 shown
    cases part with
    | event => cases face
    | service => cases face
    | flow =>
        have whole := Element.flow.inj face
        rw [← whole]
        exact ⟨serviceFlowId_eq limit activity.id, rfl, serviceId_eq limit activity.id⟩

/-- Only the flow of a time limit touches its event or its service task. -/
theorem flow_id_of_touches (displays : Displays delegate start board graph) {activity : Node}
    (limitable : Limitable start activity) {limit : TimeLimit} {part : Part}
    {flow : SequenceFlow} (member : flow ∈ graph.flows)
    (touches : flow.source = part.id limit activity.id ∨ flow.target = part.id limit activity.id) :
    flow.id = Part.flow.id limit activity.id := by
  rcases displays.flow_cases member with
    ⟨task, _, _, other, flowId, source, target⟩ | ⟨_, present⟩
  · rw [source, target] at touches
    rcases touches with same | same
    · obtain ⟨_, rfl, sameActivity⟩ := Part.id_inj.1 same
      rw [flowId, sameActivity]
    · obtain ⟨_, rfl, sameActivity⟩ := Part.id_inj.1 same
      rw [flowId, sameActivity]
  · obtain ⟨⟨source, sourceMember, sourceId⟩, target, targetMember, targetId⟩ :=
      limitable.wellFormed.joined flow present
    rcases touches with same | same
    · exact absurd (sourceId.trans same)
        (limitable.node_id_ne sourceMember limit part)
    · exact absurd (targetId.trans same)
        (limitable.node_id_ne targetMember limit part)

end Displays

end BusinessProcess.TimeLimit
