import BusinessProcess.Proofs.TimeLimit.Sync

/-!
# How far timers depend on the past

A limit that is entered is worked out from the values kept for the limits before it, whether or not
these show a timer; a limit that is worked out again must have a timer before it. The two disagree
about the repeated warnings while the first warning cannot be worked out. In this case, and in no
other one, two processes may keep the same values and show different timers.
-/

namespace BusinessProcess.TimeLimit

open BusinessProcess.Graph

/-- What is expected follows from the values kept. -/
theorem expected?_of_get?_eq {first second : Attributes}
    (same : ∀ limit : TimeLimit,
      first.get? limit.attributeKey = second.get? limit.attributeKey) {limit : TimeLimit} :
    expected? first limit = expected? second limit := by
  have sameStored : ∀ other, stored? first other = stored? second other := by
    intro other
    rw [stored?, stored?, Attributes.filled?, Attributes.filled?, same]
  exact expected?_congr (sameStored limit) fun earlier _ => sameStored earlier

/-- Repeated warnings have a first warning to start at, or they cannot be worked out anyway. -/
def Settled (attributes : Attributes) : Prop :=
  (expected? attributes .firstWarning).isSome = true ∨ expected? attributes .loopWarning = none

/-- Unless the values kept are settled, repeated warnings are expected without a first one. -/
theorem not_settled_iff {attributes : Attributes} : ¬ Settled attributes ↔
    expected? attributes .firstWarning = none ∧
      ∃ expression, expected? attributes .loopWarning = some expression := by
  rw [Settled, not_or, Bool.not_eq_true, Option.isSome_eq_false_iff, Option.isNone_iff_eq_none]
  exact and_congr_right fun _ => Option.ne_none_iff_exists'

/-! ## Entering what is kept -/

namespace Dial

variable {dial : Dial}

/-- The dial after the value kept for a limit was entered again. -/
def reenter (dial : Dial) (limit : TimeLimit) : Dial :=
  (dial.enter limit (dial.attributes.get? limit.attributeKey)).2

/-- Entering again what is kept clears a limit without a value. -/
theorem reenter_of_get?_eq_none {limit : TimeLimit}
    (absent : dial.attributes.get? limit.attributeKey = none) :
    dial.reenter limit = dial.clear limit := by
  rw [reenter, absent]
  rfl

/-- Entering again what is kept sets a limit that can be worked out. -/
theorem reenter_of_derive_eq_ok {limit : TimeLimit} {raw : String} {expression : TimerExpression}
    (accepted : dial.Accepted) (present : dial.attributes.get? limit.attributeKey = some raw)
    (done : derive dial.attributes limit raw = .ok expression) :
    dial.reenter limit = dial.set limit raw expression := by
  simp only [reenter, present, enter, accepted.entered limit raw present, done]

/-- Entering again what is kept changes no value. -/
theorem get?_reenter (accepted : dial.Accepted) (limit : TimeLimit) (key : String) :
    (dial.reenter limit).attributes.get? key = dial.attributes.get? key := by
  cases present : dial.attributes.get? limit.attributeKey with
  | none =>
      rw [reenter_of_get?_eq_none present, attributes_clear, Store.get?_erase]
      split
      next same => rw [same, present]
      next => rfl
  | some raw =>
      cases done : derive dial.attributes limit raw with
      | error obstacle =>
          simp only [reenter, present, enter, accepted.entered limit raw present, done]
      | ok expression =>
          rw [reenter_of_derive_eq_ok accepted present done, attributes_set, Store.get?_insert]
          split
          next same => rw [same, present]
          next => rfl

/-- Repeated warnings that can be worked out show when they are entered again. -/
theorem shown_reenter_loopWarning (accepted : dial.Accepted) {expression : TimerExpression}
    (expected : expected? dial.attributes .loopWarning = some expression) :
    (dial.reenter .loopWarning).shown .loopWarning = some expression := by
  obtain ⟨raw, kept, done⟩ := expected?_eq_some_iff.1 expected
  rw [accepted.stored?_eq] at kept
  rw [reenter_of_derive_eq_ok accepted kept done]
  rfl

/-- Without a first warning, no repeated warnings show when the deadline is entered again. -/
theorem shown_reenter_deadline (accepted : dial.Accepted)
    (noFirst : expected? dial.attributes .firstWarning = none) :
    (dial.reenter .deadline).shown .loopWarning = none := by
  cases present : dial.attributes.get? (attributeKey .deadline) with
  | none =>
      rw [reenter_of_get?_eq_none present]
      rfl
  | some raw =>
      obtain ⟨expression, done⟩ := accepted.usable raw present
      have stillNoFirst : expected? (dial.attributes.insert (attributeKey .deadline) raw)
          .firstWarning = none := by
        have unchanged := get?_reenter accepted .deadline
        rw [reenter_of_derive_eq_ok accepted present done, attributes_set] at unchanged
        rw [expected?_of_get?_eq fun limit => unchanged limit.attributeKey, noFirst]
      rw [reenter_of_derive_eq_ok accepted present done]
      simp [Dial.set, dependents, refresh_cons, refresh, put, stillNoFirst]

/-- Where the values kept are settled, a dial in step shows what is expected. -/
theorem InStep.shown_loopWarning (inStep : dial.InStep) (settled : Settled dial.attributes) :
    dial.shown .loopWarning = expected? dial.attributes .loopWarning := by
  rcases inStep.loopWarning with shown | ⟨absent, noFirst⟩
  · exact shown
  · rw [Settled, noFirst] at settled
    rcases settled with isFirst | noLoop
    · cases isFirst
    · rw [absent, noLoop]

/-- Dials in step that keep the same values show the same, but for repeated warnings that are not
settled. -/
theorem InStep.shown_eq {first second : Dial} (inStep : first.InStep) (alsoInStep : second.InStep)
    (same : ∀ limit : TimeLimit, first.attributes.get? limit.attributeKey =
      second.attributes.get? limit.attributeKey) (limit : TimeLimit)
    (settled : limit = .loopWarning → Settled first.attributes) :
    first.shown limit = second.shown limit := by
  have expectedSame : ∀ {limit}, expected? first.attributes limit =
      expected? second.attributes limit :=
    expected?_of_get?_eq same
  cases limit with
  | deadline => rw [inStep.deadline, alsoInStep.deadline, expectedSame]
  | firstWarning => rw [inStep.firstWarning, alsoInStep.firstWarning, expectedSame]
  | loopWarning =>
      have alsoSettled : Settled second.attributes := by
        rw [Settled, ← expectedSame, ← expectedSame]
        exact settled rfl
      rw [inStep.shown_loopWarning (settled rfl), alsoInStep.shown_loopWarning alsoSettled,
        expectedSame]

end Dial

/-! ## Processes that keep the same values -/

/-- Both processes keep the same values for the time limits of the activity. -/
def SameKept (activity : ElementId) (first second : Graph) : Prop :=
  ∀ limit : TimeLimit, (attributesOf first activity).get? limit.attributeKey =
    (attributesOf second activity).get? limit.attributeKey

/-- In both processes the same parts of the limit of the activity are there, with the same timer. -/
def SameTimer (activity : ElementId) (limit : TimeLimit) (first second : Graph) : Prop :=
  ∀ part : Part, first.face? (part.id limit activity) = second.face? (part.id limit activity)

section Run

variable {delegate : String} {start graph other : Graph} {board otherBoard : Board}
  {activity : Node} (limitable : Limitable start activity)

include limitable

/-- The timers of a limit are the same exactly if the dials show the same. -/
theorem Displays.sameTimer_iff (displays : Displays delegate start board graph)
    (otherDisplays : Displays delegate start otherBoard other) (limit : TimeLimit) :
    SameTimer activity.id limit graph other ↔
      (board activity.id).shown limit = (otherBoard activity.id).shown limit := by
  constructor
  · intro same
    have faces := same .event
    rw [displays.face?_of_part limitable, otherDisplays.face?_of_part limitable] at faces
    refine Option.map_injective (fun first second equal => ?_) faces
    have definitions : [EventDefinition.timer first] = [.timer second] :=
      (congrArg Node.definitions (Element.node.inj equal) :)
    cases definitions
    rfl
  · intro same part
    rw [displays.face?_of_part limitable, otherDisplays.face?_of_part limitable, same]

/-- What is kept for a limit of an activity may be entered again, and then all values are the
same. -/
theorem Adjusted.exists_reentered (adjusted : Adjusted delegate start graph)
    (tuned : Tuned delegate start board graph) (limit : TimeLimit) :
    ∃ later, Adjusted delegate start later ∧ SameKept activity.id graph later ∧
      Displays delegate start (board.turn activity.id (·.reenter limit)) later := by
  obtain ⟨later, done, displays⟩ := tuned.displays.change limitable limit
    ((board activity.id).attributes.get? limit.attributeKey)
  have isNext := adjusted.change limitable.member limit
    ((board activity.id).attributes.get? limit.attributeKey)
  rw [TimerChange.left, done] at isNext
  have turned : board.turn activity.id (·.reenter limit) = board.turn activity.id fun dial =>
      (dial.enter limit ((board activity.id).attributes.get? limit.attributeKey)).2 :=
    board.turn_congr rfl
  rw [← turned] at displays
  refine ⟨later, isNext, fun other => ?_, displays⟩
  rw [tuned.displays.attributesOf_eq limitable, displays.attributesOf_eq limitable,
    Board.turn_self,
    Dial.get?_reenter (tuned.accepted activity limitable.member limitable.isActivity)]

/-- Processes that keep the same values for an activity show the same timers, but for repeated
warnings that are not settled. -/
theorem Tuned.sameTimer (tuned : Tuned delegate start board graph)
    (otherTuned : Tuned delegate start otherBoard other)
    (kept : SameKept activity.id graph other) (limit : TimeLimit)
    (settled : limit = .loopWarning → Settled (attributesOf graph activity.id)) :
    SameTimer activity.id limit graph other := by
  have same : ∀ limit : TimeLimit, (board activity.id).attributes.get? limit.attributeKey =
      (otherBoard activity.id).attributes.get? limit.attributeKey := by
    rw [← tuned.displays.attributesOf_eq limitable,
      ← otherTuned.displays.attributesOf_eq limitable]
    exact kept
  rw [tuned.displays.attributesOf_eq limitable] at settled
  rw [tuned.displays.sameTimer_iff limitable otherTuned.displays]
  exact (tuned.inStep activity limitable.member limitable.isActivity).shown_eq
    (otherTuned.inStep activity limitable.member limitable.isActivity) same limit settled

/-- Where repeated warnings are not settled, entering again a value that is kept installs them or
takes them away. -/
theorem Adjusted.exists_not_sameTimer (adjusted : Adjusted delegate start graph)
    (tuned : Tuned delegate start board graph)
    (unsettled : ¬ Settled (attributesOf graph activity.id)) :
    ∃ later, Adjusted delegate start later ∧ SameKept activity.id graph later ∧
      ¬ SameTimer activity.id .loopWarning graph later := by
  have accepted := tuned.accepted activity limitable.member limitable.isActivity
  rw [tuned.displays.attributesOf_eq limitable] at unsettled
  obtain ⟨noFirst, expression, loop⟩ := not_settled_iff.1 unsettled
  cases shown : (board activity.id).shown .loopWarning with
  | none =>
      obtain ⟨later, isAdjusted, kept, displays⟩ :=
        adjusted.exists_reentered limitable tuned .loopWarning
      refine ⟨later, isAdjusted, kept, ?_⟩
      rw [tuned.displays.sameTimer_iff limitable displays, Board.turn_self, shown,
        Dial.shown_reenter_loopWarning accepted loop]
      exact (Option.some_ne_none expression).symm
  | some timer =>
      obtain ⟨later, isAdjusted, kept, displays⟩ :=
        adjusted.exists_reentered limitable tuned .deadline
      refine ⟨later, isAdjusted, kept, ?_⟩
      rw [tuned.displays.sameTimer_iff limitable displays, Board.turn_self, shown,
        Dial.shown_reenter_deadline accepted noFirst]
      exact Option.some_ne_none timer

end Run

/-- Processes reached by changes of time limits that keep the same values for an activity show the
same deadline and the same first warning. They are sure to show the same repeated warnings exactly
if these are settled. -/
theorem Adjusted.timers_determined_iff {policy : Policy} {root : ElementId} {ledger : Ledger}
    (reached : Reached policy root ledger) (unlimited : Unlimited ledger.graph)
    (untimed : Untimed ledger.graph) {delegate : String} {graph : Graph}
    (adjusted : Adjusted delegate ledger.graph graph) {activity : Node}
    (member : activity ∈ ledger.graph.nodes) (isActivity : activity.kind.isActivity = true) :
    (∀ other, Adjusted delegate ledger.graph other → SameKept activity.id graph other →
      ∀ limit, limit ≠ .loopWarning → SameTimer activity.id limit graph other) ∧
    ((∀ other, Adjusted delegate ledger.graph other → SameKept activity.id graph other →
      ∀ limit, SameTimer activity.id limit graph other) ↔
        Settled (attributesOf graph activity.id)) := by
  have wellFormed := reached.sound.wellFormed
  have limitable : Limitable ledger.graph activity := ⟨wellFormed, unlimited, member, isActivity⟩
  obtain ⟨board, tuned⟩ := adjusted.exists_board wellFormed unlimited untimed
  have agree : ∀ other, Adjusted delegate ledger.graph other →
      SameKept activity.id graph other → ∀ limit : TimeLimit,
        (limit = .loopWarning → Settled (attributesOf graph activity.id)) →
          SameTimer activity.id limit graph other := by
    intro other otherAdjusted kept limit settled
    obtain ⟨otherBoard, otherTuned⟩ := otherAdjusted.exists_board wellFormed unlimited untimed
    exact tuned.sameTimer limitable otherTuned kept limit settled
  refine ⟨fun other otherAdjusted kept limit differs => ?_, fun always => ?_,
    fun settled other otherAdjusted kept limit => ?_⟩
  · exact agree other otherAdjusted kept limit fun same => absurd same differs
  · by_contra unsettled
    obtain ⟨later, isAdjusted, kept, differs⟩ :=
      adjusted.exists_not_sameTimer limitable tuned unsettled
    exact differs (always later isAdjusted kept .loopWarning)
  · exact agree other otherAdjusted kept limit fun _ => settled

/-- Where the deadline is shorter than the first warning, the repeated warnings show if they were
entered after the deadline, and do not show if the same deadline is entered once more. -/
theorem not_sameTimer_of_shortened : Reached ⟨false, false⟩ ⟨"P"⟩ soleTask ∧
    Unlimited soleTask.graph ∧ Untimed soleTask.graph ∧
    (∀ node ∈ soleTask.graph.nodes, node.incoming = [] ∧ node.outgoing = []) ∧
    ∃ first second, Adjusted "delegate" soleTask.graph first ∧
      Adjusted "delegate" soleTask.graph second ∧ SameKept ⟨"T"⟩ first second ∧
      ¬ SameTimer ⟨"T"⟩ .loopWarning first second := by
  let task : Node := { Node.alone ⟨"T"⟩ (.task .user) with parent := some ⟨"P"⟩ }
  have member : task ∈ soleTask.graph.nodes := by decide
  have first := (Adjusted.start : Adjusted "delegate" soleTask.graph _).enterAll member
    [(.deadline, some "2H"), (.firstWarning, some "1H"), (.deadline, some "30M"),
      (.loopWarning, some "20M")]
  have second := first.enterAll member [(.deadline, some "30M")]
  refine ⟨reached_soleTask _, unlimited_soleTask, untimed_soleTask, by decide, _, _, first, second,
    fun limit => ?_, fun same => ?_⟩
  · cases limit <;> decide +kernel
  · exact absurd (same .event) (by decide +kernel)

/-- A task with a deadline of two hours and warnings from one hour before it on shows the same
timers however they were entered. -/
theorem sameTimer_of_twoHours : ∃ graph, Adjusted "delegate" soleTask.graph graph ∧
    graph.contains ⟨"T_timer_loop"⟩ = true ∧
      ∀ other, Adjusted "delegate" soleTask.graph other → SameKept ⟨"T"⟩ graph other →
        ∀ limit, SameTimer ⟨"T"⟩ limit graph other := by
  let task : Node := { Node.alone ⟨"T"⟩ (.task .user) with parent := some ⟨"P"⟩ }
  have member : task ∈ soleTask.graph.nodes := by decide
  have adjusted := (Adjusted.start : Adjusted "delegate" soleTask.graph _).enterAll member
    [(.deadline, some "2H"), (.firstWarning, some "1H"), (.loopWarning, some "20M")]
  have settled := (adjusted.timers_determined_iff (reached_soleTask ⟨true, true⟩) unlimited_soleTask
    untimed_soleTask member rfl).2
  exact ⟨_, adjusted, by decide +kernel, settled.2 (Or.inl (by decide +kernel))⟩

end BusinessProcess.TimeLimit
