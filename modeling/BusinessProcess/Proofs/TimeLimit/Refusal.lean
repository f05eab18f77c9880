import BusinessProcess.Proofs.History.Removal
import BusinessProcess.Proofs.TimeLimit.Clash

/-!
# Changes of time limits that fail

A change of a time limit is announced to fail on what is no node, on what is no activity and on what
lies in no container. It leaves the process alone then, as it does when it is skipped. The only other
failures come from clashes, where another element bears the id of a part of the limit. They stop the
change half way.
-/

namespace BusinessProcess

open TimeLimit

/-- The errors that a change of a time limit is announced to fail with. -/
inductive Announced (graph : Graph) (activity : ElementId) : TimerError → Prop where
  | unknown (absent : graph.node? activity = none) :
      Announced graph activity (.unknownElement activity)
  | unfit {node : Node} (found : graph.node? activity = some node)
      (isOther : node.kind.isActivity = false) : Announced graph activity (.notAnActivity activity)
  | detached {node : Node} (found : graph.node? activity = some node)
      (isActivity : node.kind.isActivity = true) (free : node.parent = none) :
      Announced graph activity (.detached activity)

/-- The announced errors are those of finding the container of the activity. -/
theorem announced_iff {graph : Graph} {activity : ElementId} {error : TimerError} :
    Announced graph activity error ↔ owningContainer graph activity = .error error := by
  constructor
  · rintro (absent | ⟨found, isOther⟩ | ⟨found, isActivity, free⟩)
    · simp only [owningContainer, absent]
    · simp [owningContainer, found, isOther]
    · simp only [owningContainer, found, isActivity, free, if_true]
  · intro unowned
    rw [owningContainer] at unowned
    split at unowned
    next absent =>
      rw [← Except.error.inj unowned]
      exact .unknown absent
    next node found =>
      split at unowned
      next isActivity =>
        split at unowned
        next => cases unowned
        next free =>
          rw [← Except.error.inj unowned]
          exact .detached found isActivity free
      next isOther =>
        rw [← Except.error.inj unowned]
        exact .unfit found (by simpa using isOther)

/-- The root is not among the nodes whose ids a change has cleared. -/
theorem TimeLimit.Midway.root_not_mem {start graph : Graph} {activity container : ElementId}
    {gone : List ElementId} (midway : Midway start activity container gone graph) :
    start.root ∉ gone := by
  intro isGone
  obtain ⟨root, member, isRoot, _, free⟩ := midway.trimmed.wellFormed.rooted
  have lost : ¬ start.Spared gone graph.root := by
    rw [midway.trimmed.root]
    exact fun spared => spared.not_mem isGone
  have found := Graph.node?_of_mem midway.trimmed.wellFormed.distinct member
  rw [isRoot] at found
  obtain ⟨_, _, parent⟩ := midway.trimmed.fresh_of_not_spared lost found
  cases free.symm.trans parent

/-- Clearing a limit fails exactly if the root has the id of a part that is removed with it. -/
theorem TimeLimit.answer_of_entered?_eq_none {start : Graph} (wellFormed : start.WellFormed)
    {activity container : ElementId} (owned : owningContainer start activity = .ok container)
    (delegate : String) (limit : TimeLimit) {value : Option String}
    (entered : Text.entered? value = none) :
    (limit.change delegate activity value).answer start =
      if start.root ∈ nodeIds activity (touched limit) then
        .error (.graph (.rootRemoval start.root))
      else .ok .removed := by
  let isRoot (cause : GraphError) : Prop :=
    start.root ∈ nodeIds activity (touched limit) ∧ cause = .rootRemoval start.root
  have roots : ∀ id ∈ nodeIds activity (touched limit), id = start.root →
      isRoot (.rootRemoval id) :=
    fun id isPart same => ⟨same ▸ isPart, congrArg _ same⟩
  have initially : Midway start activity container [] start := .initially wellFormed
  have same : (limit.change delegate activity value).answer start =
      (changeIn delegate container activity limit value
        (attributesOf start activity)).answer start := by
    rw [TimerChange.answer, TimerChange.answer, change_of_owned owned]
  rw [changeIn, entered] at same
  cases answer : (limit.change delegate activity value).answer start with
  | ok outcome =>
      obtain ⟨rfl, midway⟩ :=
        (leads_clearing delegate limit roots).answered initially (same.symm.trans answer)
      rw [if_neg midway.root_not_mem]
  | error error =>
      obtain ⟨_, rfl, ⟨isPart, rfl⟩, _⟩ :=
        (leads_clearing delegate limit roots).stopped initially (same.symm.trans answer)
      rw [if_pos isPart]

/-- In every reached process, a change of a time limit that is skipped or fails as announced leaves
the process exactly as it was. It fails as announced exactly where it is announced to. Beyond that it
only fails where the id of a part of the limit, or of a limit that depends on it, is taken by another
element, or where the container of the activity lies in such an element. Where nothing is entered, it
does so exactly if the root has such an id. -/
theorem Reached.change_fails {policy : Policy} {root : ElementId} {ledger : Ledger}
    (reached : Reached policy root ledger) (delegate : String) (activity : ElementId)
    (limit : TimeLimit) (value : Option String) :
    let change := limit.change delegate activity value
    (∀ obstacle, change.answer ledger.graph = .ok (.skipped obstacle) →
      change.left ledger.graph = ledger.graph) ∧
    (∀ error, change.answer ledger.graph = .error error →
      (Announced ledger.graph activity error ∧ change.left ledger.graph = ledger.graph) ∨
      ∃ container cause, owningContainer ledger.graph activity = .ok container ∧
        error = .graph cause ∧ Clash ledger.graph activity container (touched limit) cause) ∧
    (∀ error, Announced ledger.graph activity error →
      change.answer ledger.graph = .error error) ∧
    ∀ container, owningContainer ledger.graph activity = .ok container →
      Text.entered? value = none →
        change.answer ledger.graph =
          if ledger.graph.root ∈ nodeIds activity (touched limit) then
            .error (.graph (.rootRemoval ledger.graph.root))
          else .ok .removed := by
  intro change
  have wellFormed := reached.sound.wellFormed
  cases owned : owningContainer ledger.graph activity with
  | error error =>
      have stopped : change ledger.graph = .error error ledger.graph := change_of_unowned owned
      simp only [TimerChange.answer, TimerChange.left, stopped]
      refine ⟨fun _ _ => trivial, ?_, ?_, ?_⟩
      · rintro other ⟨⟩
        exact .inl ⟨announced_iff.2 owned, trivial⟩
      · intro other announced
        rw [announced_iff, owned] at announced
        exact congrArg _ (Except.error.inj announced)
      · rintro container ⟨⟩
  | ok container =>
      have leads := leads_change wellFormed owned delegate limit value
      refine ⟨fun obstacle skipped => ?_, fun error failed => ?_, fun error announced => ?_, ?_⟩
      · rcases leads.answered rfl skipped with ⟨_, _, unchanged⟩ | ⟨notSkipped, _⟩
        · exact unchanged
        · exact absurd rfl (notSkipped obstacle)
      · obtain ⟨cause, isGraph, clash, _⟩ := leads.stopped rfl failed
        exact .inr ⟨container, cause, rfl, isGraph, clash⟩
      · cases owned.symm.trans (announced_iff.1 announced)
      · rintro other ⟨⟩ entered
        exact answer_of_entered?_eq_none wellFormed owned delegate limit entered

/-- The root bears the id of the event of the deadline of a task. Clearing the deadline erases the
value kept for it and then fails at the root, with an error that is not announced. -/
theorem not_announced_of_root : ∃ ledger, Reached ⟨false, false⟩ ⟨"T_overtime"⟩ ledger ∧
    (TimeLimit.deadline.change "delegate" ⟨"T"⟩ none).answer ledger.graph =
      .error (.graph (.rootRemoval ⟨"T_overtime"⟩)) ∧
    ¬ Announced ledger.graph ⟨"T"⟩ (.graph (.rootRemoval ⟨"T_overtime"⟩)) ∧
    (TimeLimit.deadline.change "delegate" ⟨"T"⟩ none).left ledger.graph ≠ ledger.graph := by
  let task : Node :=
    { Node.alone ⟨"T"⟩ (.task .user) with attributes := .ofList [("timeLimit:timeDuration", "2H")] }
  have built : Reached ⟨false, false⟩ ⟨"T_overtime"⟩
      ((Ledger.new ⟨"T_overtime"⟩).record (.addNode ⟨"T_overtime"⟩ task)) :=
    .edit .new (.fresh ⟨"T"⟩ (.task .user) ⟨rfl, rfl, rfl, rfl, fun _ => ⟨rfl, rfl⟩⟩)
  exact ⟨_, built, by decide +kernel, nofun, by decide +kernel⟩

/-- A flow bears the id of the service task of the deadline of a task. Setting the deadline fails at
it, once the event is there. -/
theorem duplicate_of_flow : ∃ ledger, Reached ⟨false, false⟩ ⟨"P"⟩ ledger ∧
    (∃ container, Clash ledger.graph ⟨"T"⟩ container (touched .deadline)
      (.duplicateId ⟨"T_overtime_service"⟩)) ∧
    (TimeLimit.deadline.change "delegate" ⟨"T"⟩ (some "2H")).left ledger.graph ≠ ledger.graph := by
  let drawn : Ledger := (((Ledger.new ⟨"P"⟩).record
    (.addNode ⟨"P"⟩ (.alone ⟨"S"⟩ (.event .start)))).record
    (.addNode ⟨"P"⟩ (.alone ⟨"T"⟩ (.task .user)))).record
    (.addFlow ⟨"P"⟩ (.between ⟨"T_overtime_service"⟩ ⟨"S"⟩ ⟨"T"⟩))
  have built : Reached ⟨false, false⟩ ⟨"P"⟩ drawn :=
    .edit ((Reached.new.addAlone _ _ _).addAlone _ _ _) trivial
  have changed : (TimeLimit.deadline.change "delegate" ⟨"T"⟩ (some "2H")).left drawn.graph ≠
      drawn.graph := by
    decide +kernel
  refine ⟨drawn, built, ?_, changed⟩
  rcases (built.change_fails "delegate" ⟨"T"⟩ .deadline (some "2H")).2.1
      (.graph (.duplicateId ⟨"T_overtime_service"⟩)) (by decide +kernel) with
    ⟨_, unchanged⟩ | ⟨container, cause, _, isGraph, clash⟩
  · exact absurd unchanged changed
  · cases isGraph
    exact ⟨container, clash⟩

end BusinessProcess
