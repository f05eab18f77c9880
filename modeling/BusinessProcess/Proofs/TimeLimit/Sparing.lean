import BusinessProcess.Proofs.TimeLimit.Refusal

/-!
# What a change of a time limit spares

A change of a time limit removes what bears the ids of its nodes and adds its own nodes. Where these
are nodes of timers, nothing else goes. Another node that bears such an id goes as well, and with it
all that lies in it, even the activity itself.
-/

namespace BusinessProcess

open TimeLimit

/-- The node is found in the process as it was, as far as its kind, its name, its parent and its
definitions go. -/
def Stays (left : Graph) (node : Node) : Prop :=
  ∃ later, left.node? node.id = some later ∧ later.kind = node.kind ∧ later.name = node.name ∧
    later.parent = node.parent ∧ later.definitions = node.definitions

/-- A node with the same gist is the same node as far as that goes. -/
theorem stays_of_gist_eq {left : Graph} {node later : Node}
    (found : left.node? node.id = some later) (same : later.gist = node.gist) :
    Stays left node :=
  ⟨later, found, (congrArg Node.kind same :), (congrArg Node.name same :),
    (congrArg Node.parent same :), (congrArg Node.definitions same :)⟩

/-- What is not found does not stay. -/
theorem not_stays_of_absent {left : Graph} {node : Node} (absent : left.node? node.id = none) :
    ¬ Stays left node := by
  rintro ⟨later, found, _⟩
  cases absent.symm.trans found

namespace TimeLimit

/-- An activity does not bear the id of a node of its own limits. -/
theorem activity_not_mem_nodeIds (activity : ElementId) (limits : List TimeLimit) :
    activity ∉ nodeIds activity limits := by
  rw [mem_nodeIds]
  rintro ⟨limit, _, same | same⟩
  · exact Part.id_ne_self .service limit activity same.symm
  · exact Part.id_ne_self .event limit activity same.symm

/-- Where all nodes that bear the ids are those of timers, every other node is spared. -/
theorem spared_of_timers {start : Graph} (wellFormed : start.WellFormed) {ids : List ElementId}
    (timers : ∀ node ∈ start.nodes, node.id ∈ ids → IsTimer node) {node : Node}
    (member : node ∈ start.nodes) (isOther : ¬ (IsTimer node ∧ node.id ∈ ids)) :
    start.Spared ids node.id := by
  intro outer isPart liesIn
  obtain ⟨depth, within⟩ := (wellFormed.liesIn_iff member).1 liesIn
  cases depth with
  | zero =>
      rcases within.invert with ⟨_, rfl⟩ | ⟨_, _, _, _, impossible, _⟩
      · exact isOther ⟨timers node member isPart, isPart⟩
      · cases impossible
  | succ depth =>
      -- What holds a node is a container, which the node of a timer is not.
      obtain ⟨child, childMember, parent, _⟩ := Graph.Within.succ_iff.1 within
      obtain ⟨holder, isNode, rfl, holds⟩ :=
        wellFormed.parent_named (Graph.node_mem_elements.2 childMember) parent
      rw [(timers holder isNode isPart).holdsNothing] at holds
      cases holds

namespace Midway

variable {start left : Graph} {activity container : ElementId} {gone : List ElementId}

/-- What is spared stays. -/
theorem stays (midway : Midway start activity container gone left) {node : Node}
    (member : node ∈ start.nodes) (spared : start.Spared gone node.id) : Stays left node := by
  obtain ⟨later, found, same⟩ := midway.trimmed.exists_spared member spared
  exact stays_of_gist_eq found same

/-- What is no node of a timer under one of the ids stays exactly if it is spared. -/
theorem stays_iff (midway : Midway start activity container gone left) {node : Node}
    (member : node ∈ start.nodes) (isOther : ¬ (IsTimer node ∧ node.id ∈ gone)) :
    Stays left node ↔ start.Spared gone node.id := by
  refine ⟨?_, midway.stays member⟩
  rintro ⟨later, found, kind, _⟩
  by_contra lost
  obtain ⟨isGone, isTimer, _⟩ := midway.trimmed.fresh_of_not_spared lost found
  have sameKind : node.kind = later.gist.kind := kind.symm
  refine isOther ⟨?_, isGone⟩
  rw [IsTimer, sameKind]
  exact isTimer

end Midway

section Change

variable {start : Graph} (wellFormed : start.WellFormed) (delegate : String)
  (activity : ElementId) (limit : TimeLimit) (value : Option String)
include wellFormed

/-- Wherever a change stops, it has done nothing or is on its way. -/
theorem left_eq_or_midway :
    (limit.change delegate activity value).left start = start ∨
      ∃ container, ∃ gone ⊆ nodeIds activity (touched limit),
        Midway start activity container gone
          ((limit.change delegate activity value).left start) := by
  cases owned : owningContainer start activity with
  | error error => exact .inl (by rw [TimerChange.left, change_of_unowned owned])
  | ok container =>
      have leads := leads_change wellFormed owned delegate limit value
      cases answer : (limit.change delegate activity value).answer start with
      | ok outcome =>
          rcases leads.answered rfl answer with ⟨_, _, same⟩ | ⟨_, midway⟩
          · exact .inl same
          · exact .inr ⟨container, _, List.Subset.refl _, midway⟩
      | error error =>
          obtain ⟨_, _, _, gone, cleared, midway⟩ := leads.stopped rfl answer
          exact .inr ⟨container, gone, cleared, midway⟩

/-- A change that is made has come all its way. -/
theorem exists_midway_of_made {outcome : Outcome}
    (answer : (limit.change delegate activity value).answer start = .ok outcome)
    (notSkipped : ∀ obstacle, outcome ≠ .skipped obstacle) :
    ∃ container, Midway start activity container (nodeIds activity (touched limit))
      ((limit.change delegate activity value).left start) := by
  cases owned : owningContainer start activity with
  | error error =>
      rw [TimerChange.answer, change_of_unowned owned] at answer
      cases answer
  | ok container =>
      rcases (leads_change wellFormed owned delegate limit value).answered rfl answer with
        ⟨obstacle, skipped, _⟩ | ⟨_, midway⟩
      · exact absurd skipped (notSkipped obstacle)
      · exact ⟨container, midway⟩

end Change

end TimeLimit

/-- In every reached process, a change of a time limit spares whatever lies in no node that bears
one of the ids of the limit or of those that depend on it. So it spares everything but the nodes of
timers under these ids, the activity included, if no other nodes bear them. Once the change is made,
all other nodes are gone: what is no node of a timer under one of the ids stays exactly if it is
spared, and all of it stays exactly if there is no other node under these ids. -/
theorem Reached.change_spares {policy : Policy} {root : ElementId} {ledger : Ledger}
    (reached : Reached policy root ledger) (delegate : String) (activity : ElementId)
    (limit : TimeLimit) (value : Option String) :
    let change := limit.change delegate activity value
    let left := change.left ledger.graph
    let ids := nodeIds activity (touched limit)
    let onlyTimers := ∀ node ∈ ledger.graph.nodes, node.id ∈ ids → IsTimer node
    activity ∉ ids ∧
    (∀ node ∈ ledger.graph.nodes, ledger.graph.Spared ids node.id → Stays left node) ∧
    (onlyTimers → ∀ node ∈ ledger.graph.nodes, ¬ (IsTimer node ∧ node.id ∈ ids) →
      Stays left node) ∧
    ∀ outcome, change.answer ledger.graph = .ok outcome →
      (∀ obstacle, outcome ≠ .skipped obstacle) →
        (∀ node ∈ ledger.graph.nodes, ¬ (IsTimer node ∧ node.id ∈ ids) →
          (Stays left node ↔ ledger.graph.Spared ids node.id)) ∧
        (onlyTimers ↔ ∀ node ∈ ledger.graph.nodes, ¬ (IsTimer node ∧ node.id ∈ ids) →
          Stays left node) := by
  intro change left ids onlyTimers
  have wellFormed := reached.sound.wellFormed
  have spares : ∀ node ∈ ledger.graph.nodes, ledger.graph.Spared ids node.id →
      Stays left node := by
    intro node member spared
    rcases left_eq_or_midway wellFormed delegate activity limit value with
      same | ⟨_, gone, cleared, midway⟩
    · rw [show left = ledger.graph from same]
      exact stays_of_gist_eq (Graph.node?_of_mem wellFormed.distinct member) rfl
    · exact midway.stays member fun outer isGone => spared outer (cleared isGone)
  have timersSpared : onlyTimers → ∀ node ∈ ledger.graph.nodes,
      ¬ (IsTimer node ∧ node.id ∈ ids) → Stays left node :=
    fun timers node member isOther =>
      spares node member (spared_of_timers wellFormed timers member isOther)
  refine ⟨activity_not_mem_nodeIds _ _, spares, timersSpared, fun outcome done notSkipped => ?_⟩
  obtain ⟨container, midway⟩ :=
    exists_midway_of_made wellFormed delegate activity limit value done notSkipped
  refine ⟨fun node member isOther => midway.stays_iff member isOther, timersSpared, ?_⟩
  intro allStay node member isPart
  by_contra isOther
  have stays := allStay node member fun isTimer => isOther isTimer.1
  exact ((midway.stays_iff member fun isTimer => isOther isTimer.1).1 stays).not_mem isPart

/-- A task lies in a sub-process that bears the id of the event of its deadline. Clearing the
deadline, which is not even set, removes the sub-process and the task with it. -/
theorem not_stays_of_scope : ∃ ledger, Reached ⟨false, false⟩ ⟨"P"⟩ ledger ∧
    ∃ scope ∈ ledger.graph.nodes, ∃ task ∈ ledger.graph.nodes,
      scope.kind = .subProcess false ∧ task.id = ⟨"T"⟩ ∧ task.kind = .task .user ∧
      (TimeLimit.deadline.change "delegate" ⟨"T"⟩ none).answer ledger.graph = .ok .removed ∧
      ¬ Stays ((TimeLimit.deadline.change "delegate" ⟨"T"⟩ none).left ledger.graph) scope ∧
      ¬ Stays ((TimeLimit.deadline.change "delegate" ⟨"T"⟩ none).left ledger.graph) task := by
  have built : Reached ⟨false, false⟩ ⟨"P"⟩ (((Ledger.new ⟨"P"⟩).record
      (.addNode ⟨"P"⟩ (.alone ⟨"T_overtime"⟩ (.subProcess false)))).record
      (.addNode ⟨"T_overtime"⟩ (.alone ⟨"T"⟩ (.task .user)))) :=
    (Reached.new.addAlone _ _ _).addAlone _ _ _
  let scope : Node := { Node.alone ⟨"T_overtime"⟩ (.subProcess false) with
    parent := some ⟨"P"⟩, children := [⟨"T"⟩] }
  let task : Node := { Node.alone ⟨"T"⟩ (.task .user) with parent := some ⟨"T_overtime"⟩ }
  exact ⟨_, built, scope, by decide, task, by decide, rfl, rfl, rfl, by decide +kernel,
    not_stays_of_absent (by decide +kernel), not_stays_of_absent (by decide +kernel)⟩

/-- A task has a boundary event that bears the id of the event of its deadline. Setting the deadline
replaces the event and spares the task and the root. -/
theorem stays_of_drawn_event : ∃ ledger, Reached ⟨false, false⟩ ⟨"P"⟩ ledger ∧
    ledger.graph.contains ⟨"T_overtime"⟩ = true ∧
    ∀ node ∈ ledger.graph.nodes, node.id ≠ ⟨"T_overtime"⟩ →
      Stays ((TimeLimit.deadline.change "delegate" ⟨"T"⟩ (some "2H")).left ledger.graph) node := by
  let drawn : Ledger := ((Ledger.new ⟨"P"⟩).record
    (.addNode ⟨"P"⟩ (.alone ⟨"T"⟩ (.task .user)))).record
    (.addNode ⟨"P"⟩ (.alone ⟨"T_overtime"⟩ (.event .boundary)))
  have built : Reached ⟨false, false⟩ ⟨"P"⟩ drawn :=
    (Reached.new.addAlone _ _ _).addAlone _ _ _
  have others : ∀ node ∈ drawn.graph.nodes, node.id ≠ ⟨"T_overtime"⟩ →
      ¬ (IsTimer node ∧ node.id ∈ nodeIds ⟨"T"⟩ (touched .deadline)) := by
    decide
  have spares := built.change_spares "delegate" ⟨"T"⟩ .deadline (some "2H")
  exact ⟨drawn, built, by decide, fun node member differs =>
    spares.2.2.1 (by decide) node member (others node member differs)⟩

end BusinessProcess
