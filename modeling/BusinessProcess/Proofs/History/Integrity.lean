import BusinessProcess.Proofs.Graph.Erasure
import BusinessProcess.Proofs.Graph.Shape
import BusinessProcess.Proofs.History.Trace

/-!
# Integrity of every process

Whatever edits and changes of timers a process has been through, successful or not, its elements
form a tree below its root and its flows join its nodes. The induction runs over the history of the
process; what carries it is that the process is well formed and that the nodes given back by
removals hold nothing.
-/

namespace BusinessProcess

/-! ## Reached processes -/

/-- A change of timers. -/
inductive TimerCall where
  | setLimit (delegate : String) (activity : ElementId) (limit : TimeLimit)
      (value : Option String)
  | removeActivity (activity : ElementId)
  | sweep

/-- The change that a call makes, whatever it answers. -/
def TimerCall.run : TimerCall → TimerChange Unit
  | .setLimit delegate activity limit value => do
      let _ ← limit.change delegate activity value
  | .removeActivity activity => do
      let _ ← TimeLimit.removeActivity activity
  | .sweep => do
      let _ ← TimeLimit.sweep

/-- Every change of timers is made of edits. -/
theorem TimerCall.traced (call : TimerCall) : call.run.Traced := by
  cases call with
  | setLimit delegate activity limit value =>
      exact (TimeLimit.traced_change delegate activity limit value).bind fun _ => .pure _
  | removeActivity activity =>
      exact (TimeLimit.traced_removeActivity activity).bind fun _ => .pure _
  | sweep => exact TimeLimit.traced_sweep.bind fun _ => .pure _

/-- The ledgers of the processes that start with nothing but a root and are changed by edits and
by changes of timers. -/
inductive Reached (policy : Policy) (root : ElementId) : Ledger → Prop where
  | new : Reached policy root (.new root)
  | edit {ledger : Ledger} {edit : Edit} (reached : Reached policy root ledger)
      (allowed : policy.Allows ledger edit) : Reached policy root (ledger.record edit)
  | timers {ledger : Ledger} {call : TimerCall} {edits : List Edit}
      (reached : Reached policy root ledger) (made : call.run.Makes ledger.graph edits) :
      Reached policy root (ledger.recordAll edits)

namespace Reached

variable {policy : Policy} {root : ElementId} {ledger : Ledger}

/-- Whatever a change of timers leaves behind is reached as well. -/
theorem exists_left (reached : Reached policy root ledger) (call : TimerCall) :
    ∃ later, Reached policy root later ∧ later.graph = call.run.left ledger.graph := by
  obtain ⟨edits, made⟩ := call.traced ledger.graph
  refine ⟨ledger.recordAll edits, reached.timers made, ?_⟩
  rw [Ledger.graph_recordAll, made.left_eq]

/-- What holds of a new process and is kept by each edit holds of every reached ledger. -/
theorem invariant {property : Ledger → Prop} (initially : property (.new root))
    (keeps : ∀ ledger edit, property ledger → policy.Allows ledger edit →
      property (ledger.record edit)) (reached : Reached policy root ledger) :
    property ledger := by
  induction reached with
  | new => exact initially
  | edit _ allowed inductionHypothesis => exact keeps _ _ inductionHypothesis allowed
  | timers _ made inductionHypothesis =>
      refine Ledger.recordAll_keeps (fun ledger holds edit member => ?_) inductionHypothesis
      exact keeps ledger edit holds (made.allowed policy edit member ledger)

end Reached

/-! ## Single edits -/

namespace Graph

/-- A new process is well formed. -/
theorem wellFormed_new (root : ElementId) : (Graph.new root).WellFormed where
  distinct := by simp [ids, Graph.new]
  joined := by simp [Graph.new]
  rooted := ⟨.alone root .process, List.mem_singleton_self _, rfl, rfl, rfl⟩
  held := by
    intro element member other
    cases element with
    | node node =>
        have isRoot := List.mem_singleton.1 (node_mem_elements.1 member)
        subst isRoot
        exact absurd rfl other
    | flow flow => exact absurd (flow_mem_elements.1 member) List.not_mem_nil
  listed := by
    intro container member child isListed
    have isRoot := List.mem_singleton.1 member
    subst isRoot
    exact absurd isListed List.not_mem_nil
  grounded := by
    intro node member
    have isRoot := List.mem_singleton.1 member
    subst isRoot
    exact ⟨0, .here⟩

/-- Removing a node keeps a process well formed, whether it is refused or not. -/
theorem WellFormed.removeNode {graph : Graph} (wellFormed : graph.WellFormed) (id : ElementId) :
    ((Edit.removeNode id).run graph).WellFormed ∧
      ((Edit.removeNode id).run graph).root = graph.root ∧
      ∀ node, (Edit.removeNode id).returned? graph = some node → node.children = [] := by
  simp only [Edit.run, Edit.returned?]
  rcases wellFormed.removeNode_cases id with ⟨_, refused⟩ | ⟨_, absent⟩ |
    ⟨node, member, rfl, isOther, removed⟩
  · rw [refused]
    exact ⟨wellFormed, rfl, fun node given => absurd given (Option.some_ne_none node).symm⟩
  · rw [absent]
    exact ⟨wellFormed, rfl, fun node given => absurd given (Option.some_ne_none node).symm⟩
  · rw [removed]
    refine ⟨wellFormed.without (wellFormed.severable_node member isOther), rfl, ?_⟩
    rintro other given
    obtain rfl := Option.some.inj given
    exact wellFormed.children_removed member isOther

/-- An edit keeps a process well formed, provided that an added node holds nothing. -/
theorem WellFormed.run {graph : Graph} (wellFormed : graph.WellFormed) (edit : Edit)
    (empty : ∀ parent node, edit = .addNode parent node → node.children = []) :
    (edit.run graph).WellFormed ∧ (edit.run graph).root = graph.root := by
  have described : ∀ {later}, graph.SameShape later → later.WellFormed ∧ later.root = graph.root :=
    fun same => ⟨wellFormed.of_sameShape same, same.root⟩
  cases edit with
  | addNode parent node =>
      simp only [Edit.run]
      cases done : graph.addNode parent node with
      | error error => exact ⟨wellFormed, rfl⟩
      | ok added =>
          refine ⟨wellFormed.addNode (empty parent node rfl) done, ?_⟩
          rw [(addNode_eq_ok done).2]
          rfl
  | addFlow parent flow =>
      simp only [Edit.run]
      cases done : graph.addFlow parent flow with
      | error error => exact ⟨wellFormed, rfl⟩
      | ok added => exact ⟨wellFormed.addFlow done, root_addFlow done⟩
  | addFlowUnlinked parent flow =>
      simp only [Edit.run]
      cases done : graph.addFlowUnlinked parent flow with
      | error error => exact ⟨wellFormed, rfl⟩
      | ok added =>
          refine ⟨wellFormed.addFlowUnlinked done, ?_⟩
          rw [(addFlowUnlinked_eq_ok done).2.2]
          rfl
  | removeFlow id => exact ⟨wellFormed.removeFlow id, root_removeFlow graph id⟩
  | removeNode id => exact ⟨(wellFormed.removeNode id).1, (wellFormed.removeNode id).2.1⟩
  | setName id name => exact described (sameShape_updateNode graph id fun _ => rfl)
  | setDefinitions id definitions => exact described (sameShape_updateNode graph id fun _ => rfl)
  | changeAttributes id change => exact described (sameShape_changeAttributes graph id change)
  | changeNodeAttributes id change => exact described (sameShape_updateNode graph id fun _ => rfl)
  | configureTimer event field value =>
      simp only [Edit.run]
      cases done : TimerEvent.configure graph event field value with
      | error error => exact ⟨wellFormed, rfl⟩
      | ok outcome =>
          obtain ⟨_, _, changed⟩ := configure_eq_ok done
          simp only [changed]
          exact described (sameShape_updateNode graph event fun _ => rfl)

/-! ## Integrity -/

/-- How the elements of a process hang together. -/
structure Integrity (graph : Graph) : Prop where
  /-- No id is used twice, by nodes and flows together. -/
  distinct : graph.ids.Nodup
  /-- Each element is found under its own id. -/
  stored : ∀ element ∈ graph.elements, graph.element? element.id = some element
  /-- A flow starts and ends at nodes of the process. -/
  joined : ∀ flow ∈ graph.flows,
    (graph.node? flow.source).isSome = true ∧ (graph.node? flow.target).isSome = true
  /-- The root is a process that nothing holds. -/
  rooted : ∃ root, graph.node? graph.root = some root ∧ root.kind = .process ∧ root.parent = none
  /-- Every other element is listed once by its parent, a process or a sub-process. -/
  held : ∀ element ∈ graph.elements, element.id ≠ graph.root → ∃ container,
    element.parent = some container.id ∧ graph.node? container.id = some container ∧
      (container.kind = .process ∨ ∃ triggered, container.kind = .subProcess triggered) ∧
      container.children.count element.id = 1
  /-- What a node lists are elements that name it as their parent. -/
  listed : ∀ container ∈ graph.nodes, ∀ child ∈ container.children, ∃ element,
    graph.element? child = some element ∧ element.parent = some container.id
  /-- Nothing contains itself. -/
  acyclic : ∀ id, ¬ Relation.TransGen graph.Encloses id id
  /-- The ancestors of an element are its containers up to the root, none of them twice. -/
  surrounded : ∀ element ∈ graph.elements,
    graph.Surrounds element (graph.ancestors element.id)

/-- Containers are processes and sub-processes. -/
theorem isContainer_iff {kind : NodeKind} :
    kind.isContainer = true ↔ kind = .process ∨ ∃ triggered, kind = .subProcess triggered := by
  cases kind <;> simp [NodeKind.isContainer]

theorem WellFormed.has_integrity {graph : Graph} (wellFormed : graph.WellFormed) :
    graph.Integrity where
  distinct := wellFormed.distinct
  stored := fun element => element?_of_mem wellFormed.distinct
  joined := by
    intro flow member
    exact ⟨node?_isSome_iff.2 (wellFormed.joined flow member).1,
      node?_isSome_iff.2 (wellFormed.joined flow member).2⟩
  rooted := by
    obtain ⟨root, member, rootId, kind, parent⟩ := wellFormed.rooted
    exact ⟨root, rootId ▸ node?_of_mem wellFormed.distinct member, kind, parent⟩
  held := by
    intro element member other
    obtain ⟨container, present, named, isContainer, once⟩ := wellFormed.held element member other
    exact ⟨container, named, node?_of_mem wellFormed.distinct present,
      isContainer_iff.1 isContainer, once⟩
  listed := by
    intro container member child isListed
    obtain ⟨element, held, rfl, named⟩ := wellFormed.listed container member child isListed
    exact ⟨element, element?_of_mem wellFormed.distinct held, named⟩
  acyclic := wellFormed.acyclic
  surrounded := fun element => wellFormed.surrounds_ancestors

end Graph

/-- What the induction over a history carries: the process is well formed and keeps its root, and
the nodes given back by removals hold nothing. -/
structure Ledger.Sound (root : ElementId) (ledger : Ledger) : Prop where
  wellFormed : ledger.graph.WellFormed
  sameRoot : ledger.graph.root = root
  empty : ∀ node ∈ ledger.returned, node.children = []

/-- A node that may be added holds nothing. -/
theorem Policy.Offers.children_eq_nil {policy : Policy} {ledger : Ledger} {node : Node}
    (offered : policy.Offers ledger node) (empty : ∀ node ∈ ledger.returned, node.children = []) :
    node.children = [] := by
  cases offered with
  | fresh id kind described => exact described.children
  | returned before member described => exact described.children.trans (empty before member)

/-- Each edit that may be made keeps a ledger sound. -/
theorem Ledger.Sound.record {policy : Policy} {root : ElementId} {ledger : Ledger}
    (sound : ledger.Sound root) {edit : Edit} (allowed : policy.Allows ledger edit) :
    (ledger.record edit).Sound root := by
  have kept := sound.wellFormed.run edit (by
    rintro parent node rfl
    exact Policy.Offers.children_eq_nil allowed sound.empty)
  refine ⟨kept.1, kept.2.trans sound.sameRoot, fun node member => ?_⟩
  rcases List.mem_append.1 member with isNew | isOld
  · have given := Option.mem_toList.1 isNew
    cases edit with
    | removeNode id => exact (sound.wellFormed.removeNode id).2.2 node given
    | _ => cases given
  · exact sound.empty node isOld

theorem Reached.sound {policy : Policy} {root : ElementId} {ledger : Ledger}
    (reached : Reached policy root ledger) : ledger.Sound root :=
  reached.invariant
    ⟨Graph.wellFormed_new root, rfl, fun _ member => absurd member List.not_mem_nil⟩
    fun _ _ sound allowed => sound.record allowed

/-- Every process that is reached has its root and its integrity. -/
theorem Reached.integrity {policy : Policy} {root : ElementId} {ledger : Ledger}
    (reached : Reached policy root ledger) :
    ledger.graph.root = root ∧ ledger.graph.Integrity :=
  ⟨reached.sound.sameRoot, reached.sound.wellFormed.has_integrity⟩

/-- A sub-process that was removed together with a task, which had a stale reference and a
deadline, can be put back. -/
theorem integrity_of_restored : ∃ ledger, Reached ⟨true, true⟩ ⟨"P"⟩ ledger ∧
    ledger.graph.ids = [⟨"P"⟩, ⟨"S"⟩] ∧ ledger.graph.root = ⟨"P"⟩ ∧ ledger.graph.Integrity := by
  let scope : Node := .alone ⟨"S"⟩ (.subProcess false)
  let task : Node := { Node.alone ⟨"T"⟩ (.task .user) with incoming := [⟨"ghost"⟩] }
  let built := ((Ledger.new ⟨"P"⟩).record (.addNode ⟨"P"⟩ scope)).record (.addNode ⟨"S"⟩ task)
  let call : TimerCall := .setLimit "delegate" ⟨"T"⟩ .deadline (some "2H")
  have isBuilt : Reached ⟨true, true⟩ ⟨"P"⟩ built := by
    refine .edit (.edit .new (.fresh ⟨"S"⟩ (.subProcess false) ?_)) (.fresh ⟨"T"⟩ (.task .user) ?_)
    · exact ⟨rfl, rfl, rfl, rfl, fun _ => ⟨rfl, rfl⟩⟩
    · exact ⟨rfl, rfl, rfl, rfl, fun raw => nomatch raw⟩
  obtain ⟨timed, isTimed, timedGraph⟩ := isBuilt.exists_left call
  let restored : Node := { scope with parent := some ⟨"P"⟩ }
  have given : (Edit.removeNode ⟨"S"⟩).returned? timed.graph = some restored := by
    rw [timedGraph]
    decide
  have isRestored : Reached ⟨true, true⟩ ⟨"P"⟩
      ((timed.record (.removeNode ⟨"S"⟩)).record (.addNode ⟨"P"⟩ restored)) := by
    refine .edit (.edit isTimed trivial) (.returned restored ?_ ?_)
    · exact List.mem_append_left _ (Option.mem_toList.2 given)
    · exact ⟨rfl, rfl, rfl, rfl, fun _ => ⟨rfl, rfl⟩⟩
  refine ⟨_, isRestored, ?_, isRestored.integrity⟩
  show ((Edit.addNode ⟨"P"⟩ restored).run ((Edit.removeNode ⟨"S"⟩).run timed.graph)).ids = _
  rw [timedGraph]
  decide

end BusinessProcess
