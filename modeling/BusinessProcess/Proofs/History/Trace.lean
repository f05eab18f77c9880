import BusinessProcess.Proofs.History.Edit
import BusinessProcess.TimeLimit.Sweep

/-!
# Changes of timers as edits

Changes of timers are made of single edits of the process. Whatever such a change does, and
wherever it stops, the process that it leaves behind is the outcome of the edits made until then.
-/

namespace BusinessProcess

namespace TimerChange

variable {α β : Type}

/-- The process that a change leaves behind. -/
def left (change : TimerChange α) (graph : Graph) : Graph :=
  match change graph with
  | .ok _ changed => changed
  | .error _ changed => changed

/-- What a change yields or is refused with. -/
def answer (change : TimerChange α) (graph : Graph) : Except TimerError α :=
  match change graph with
  | .ok value _ => .ok value
  | .error error _ => .error error

/-- A change that yields an answer leaves its process behind with it. -/
theorem eq_ok_of_answer {change : TimerChange α} {graph : Graph} {value : α}
    (answered : change.answer graph = .ok value) :
    change graph = .ok value (change.left graph) := by
  unfold answer at answered
  unfold left
  split at answered
  next changed done =>
    cases answered
    rw [done]
  next => cases answered

/-- Looking at the process changes nothing. -/
theorem get_eq (graph : Graph) : (get : TimerChange Graph) graph = .ok graph graph :=
  rfl

/-- A change goes on from where its first step left the process. -/
theorem bind_of_ok {first : TimerChange α} {next : α → TimerChange β} {graph left : Graph}
    {value : α} (done : first graph = .ok value left) :
    (first >>= next) graph = next value left := by
  simp only [Bind.bind, EStateM.bind, done]

/-- A change stops where its first step stops. -/
theorem bind_of_error {first : TimerChange α} {next : α → TimerChange β} {graph left : Graph}
    {error : TimerError} (stopped : first graph = .error error left) :
    (first >>= next) graph = .error error left := by
  simp only [Bind.bind, EStateM.bind, stopped]

/-- A change that is done went through its first step and on from there. -/
theorem exists_of_bind_eq_ok {first : TimerChange α} {next : α → TimerChange β}
    {graph left : Graph} {value : β} (done : (first >>= next) graph = .ok value left) :
    ∃ answer middle, first graph = .ok answer middle ∧ next answer middle = .ok value left := by
  cases result : first graph with
  | ok answer middle =>
      rw [bind_of_ok result] at done
      exact ⟨answer, middle, rfl, done⟩
  | error error middle =>
      rw [bind_of_error result] at done
      cases done

/-- A change that was accepted was made. -/
theorem eq_ok_of_attempt {change : Graph → Except GraphError Graph} {graph left : Graph}
    {value : Unit} (done : attempt change graph = .ok value left) : change graph = .ok left := by
  unfold attempt at done
  split at done
  next changed made =>
    cases done
    exact made
  next => cases done

/-- A removal that was done was not refused. -/
theorem eq_ok_of_removeNode {id : ElementId} {graph left : Graph} {removed : Option Node}
    (done : removeNode id graph = .ok removed left) :
    graph.removeNode id = .ok (removed, left) := by
  unfold removeNode at done
  split at done
  next made =>
    cases done
    exact made
  next => cases done

/-- The edits that a change makes on a process before it is done or stops. -/
inductive Makes : {α : Type} → TimerChange α → Graph → List Edit → Prop where
  | pure {α : Type} (value : α) (graph : Graph) : Makes (Pure.pure value) graph []
  | throw {α : Type} (error : TimerError) (graph : Graph) :
      Makes (throw error : TimerChange α) graph []
  | get (graph : Graph) : Makes get graph []
  | addNode (parent : ElementId) (node : Node) (graph : Graph)
      (described : Policy.Describes ⟨false, false⟩ (.alone node.id node.kind) node) :
      Makes (.attempt (·.addNode parent node)) graph [.addNode parent node]
  | addFlow (parent : ElementId) (flow : SequenceFlow) (graph : Graph) :
      Makes (.attempt (·.addFlow parent flow)) graph [.addFlow parent flow]
  | changeNodeAttributes (id : ElementId) (change : Attributes → Attributes) (graph : Graph) :
      Makes (.apply (·.updateNode id fun node =>
        { node with attributes := change node.attributes })) graph
        [.changeNodeAttributes id change]
  | removeFlow (id : ElementId) (graph : Graph) : Makes (removeFlow id) graph [.removeFlow id]
  | removeNode (id : ElementId) (graph : Graph) : Makes (removeNode id) graph [.removeNode id]
  /-- A change that stops makes none of the edits that would have followed. -/
  | stop {α β : Type} {first : TimerChange α} {next : α → TimerChange β} {graph left : Graph}
      {error : TimerError} {edits : List Edit} (made : Makes first graph edits)
      (stopped : first graph = .error error left) : Makes (first >>= next) graph edits
  | bind {α β : Type} {first : TimerChange α} {next : α → TimerChange β} {graph left : Graph}
      {value : α} {edits more : List Edit} (made : Makes first graph edits)
      (done : first graph = .ok value left) (rest : Makes (next value) left more) :
      Makes (first >>= next) graph (edits ++ more)

/-- The process left behind is the outcome of the edits made. -/
theorem Makes.left_eq {change : TimerChange α} {graph : Graph} {edits : List Edit}
    (made : change.Makes graph edits) : change.left graph = edits.foldl Edit.run graph := by
  induction made with
  | pure | throw | get | changeNodeAttributes | removeFlow => rfl
  | addNode parent node graph =>
      simp only [left, attempt, List.foldl_cons, List.foldl_nil, Edit.run]
      cases graph.addNode parent node <;> rfl
  | addFlow parent flow graph =>
      simp only [left, attempt, List.foldl_cons, List.foldl_nil, Edit.run]
      cases graph.addFlow parent flow <;> rfl
  | removeNode id graph =>
      simp only [left, TimerChange.removeNode, List.foldl_cons, List.foldl_nil, Edit.run]
      cases graph.removeNode id <;> rfl
  | @stop _ _ first next graph left error edits _ stopped inductionHypothesis =>
      rw [← inductionHypothesis]
      simp only [TimerChange.left, bind_of_error stopped, stopped]
  | @bind _ _ first next graph left value edits more _ done _ firstHypothesis restHypothesis =>
      rw [List.foldl_append, ← firstHypothesis]
      have reached : first.left graph = left := by
        simp only [TimerChange.left, done]
      rw [reached, ← restHypothesis]
      simp only [TimerChange.left, bind_of_ok done]

/-- What a change of timers adds is newly made and comes without references, and its flows come
with theirs. -/
theorem Makes.allowed {change : TimerChange α} {graph : Graph} {edits : List Edit}
    (made : change.Makes graph edits) (policy : Policy) :
    ∀ edit ∈ edits, ∀ ledger, policy.Allows ledger edit := by
  induction made with
  | pure | throw | get => exact fun edit member => absurd member List.not_mem_nil
  | addNode parent node graph described =>
      intro edit member ledger
      rw [List.mem_singleton.1 member]
      exact .fresh node.id node.kind
        { described with references := fun _ => described.references rfl }
  | addFlow | changeNodeAttributes | removeFlow | removeNode =>
      intro edit member ledger
      rw [List.mem_singleton.1 member]
      exact trivial
  | stop _ _ inductionHypothesis => exact inductionHypothesis
  | bind _ _ _ firstHypothesis restHypothesis =>
      intro edit member
      rcases List.mem_append.1 member with isFirst | isLater
      · exact firstHypothesis edit isFirst
      · exact restHypothesis edit isLater

/-- On every process a change is made of edits. -/
def Traced (change : TimerChange α) : Prop :=
  ∀ graph, ∃ edits, change.Makes graph edits

namespace Traced

theorem pure (value : α) : Traced (Pure.pure value : TimerChange α) :=
  fun graph => ⟨[], .pure value graph⟩

theorem bind {first : TimerChange α} {next : α → TimerChange β} (traced : first.Traced)
    (rest : ∀ value, (next value).Traced) : (first >>= next).Traced := by
  intro graph
  obtain ⟨edits, made⟩ := traced graph
  cases done : first graph with
  | ok value left =>
      obtain ⟨more, madeLater⟩ := rest value left
      exact ⟨edits ++ more, .bind made done madeLater⟩
  | error error left => exact ⟨edits, .stop made done⟩

theorem get : (get : TimerChange Graph).Traced :=
  fun graph => ⟨[], .get graph⟩

theorem throw (error : TimerError) : (throw error : TimerChange α).Traced :=
  fun graph => ⟨[], .throw error graph⟩

theorem removeFlow (id : ElementId) : (removeFlow id).Traced :=
  fun graph => ⟨_, .removeFlow id graph⟩

theorem removeNode (id : ElementId) : (removeNode id).Traced :=
  fun graph => ⟨_, .removeNode id graph⟩

end Traced

end TimerChange

namespace TimeLimit

open TimerChange

theorem traced_uninstall (activity : ElementId) (limit : TimeLimit) :
    (uninstall activity limit).Traced :=
  (Traced.removeFlow _).bind fun _ => (Traced.removeNode _).bind fun _ =>
    (Traced.removeNode _).bind fun _ => .pure _

theorem traced_install (delegate : String) (container activity : ElementId) (setting : Setting) :
    (install delegate container activity setting).Traced := by
  refine (traced_uninstall activity setting.limit).bind fun _ => ?_
  refine Traced.bind (fun graph => ⟨_, .addNode _ _ graph ?_⟩) fun _ => ?_
  · exact ⟨rfl, rfl, rfl, rfl, fun _ => ⟨rfl, rfl⟩⟩
  refine Traced.bind (fun graph => ⟨_, .addNode _ _ graph ?_⟩) fun _ => ?_
  · exact ⟨rfl, rfl, rfl, rfl, fun _ => ⟨rfl, rfl⟩⟩
  exact fun graph => ⟨_, .addFlow _ _ graph⟩

theorem traced_refresh (delegate : String) (container activity : ElementId) (reached : Bool)
    (limits : List TimeLimit) : (refresh delegate container activity reached limits).Traced := by
  induction limits generalizing reached with
  | nil => cases reached <;> exact .pure _
  | cons limit rest inductionHypothesis =>
      cases reached with
      | false =>
          exact (traced_uninstall activity limit).bind fun _ => inductionHypothesis false
      | true =>
          refine Traced.get.bind fun graph => ?_
          dsimp only
          split
          next setting _ =>
            exact (traced_install delegate container activity setting).bind fun _ =>
              inductionHypothesis true
          next =>
            exact (traced_uninstall activity limit).bind fun _ => inductionHypothesis false

/-- Setting or clearing a time limit is made of edits. -/
theorem traced_change (delegate : String) (activity : ElementId) (limit : TimeLimit)
    (value : Option String) : (limit.change delegate activity value).Traced := by
  refine Traced.get.bind fun graph => ?_
  dsimp only
  split
  next error _ => exact .throw error
  next container _ =>
    split
    next =>
      refine Traced.bind (fun graph => ⟨_, .changeNodeAttributes _
        (Store.erase · limit.attributeKey) graph⟩) fun _ => ?_
      refine (traced_uninstall activity limit).bind fun _ => ?_
      exact (traced_refresh delegate container activity false _).bind fun _ => .pure _
    next raw _ =>
      split
      next => exact .pure _
      next expression _ =>
        refine Traced.bind (fun graph => ⟨_, .changeNodeAttributes _
          (Store.insert · limit.attributeKey raw) graph⟩) fun _ => ?_
        refine (traced_install delegate container activity _).bind fun _ => ?_
        exact (traced_refresh delegate container activity true _).bind fun _ => .pure _

/-- Removing an activity with its time limits is made of edits. -/
theorem traced_removeActivity (activity : ElementId) : (removeActivity activity).Traced := by
  have each : (all.forM (uninstall activity)).Traced :=
    (traced_uninstall activity _).bind fun _ => (traced_uninstall activity _).bind fun _ =>
      (traced_uninstall activity _).bind fun _ => .pure _
  exact each.bind fun _ => .removeNode activity

/-- Removing all time limits is made of edits. -/
theorem traced_sweep : sweep.Traced := by
  have flows : ∀ ids, (sweepFlows ids).Traced := by
    intro ids
    induction ids with
    | nil => exact .pure _
    | cons id rest inductionHypothesis =>
        exact (Traced.removeFlow id).bind fun _ => inductionHypothesis.bind fun _ => .pure _
  have nodes : ∀ ids, (sweepNodes ids).Traced := by
    intro ids
    induction ids with
    | nil => exact .pure _
    | cons id rest inductionHypothesis =>
        exact (Traced.removeNode id).bind fun _ => inductionHypothesis.bind fun _ => .pure _
  exact Traced.get.bind fun graph => (flows _).bind fun _ => (nodes _).bind fun _ => .pure _

end TimeLimit

end BusinessProcess
