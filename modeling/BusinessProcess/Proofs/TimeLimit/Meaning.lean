import BusinessProcess.Proofs.Duration.Minutes
import BusinessProcess.Proofs.TimeLimit.Sync

/-!
# What the timers of an activity mean

A timer is a text, and so is the value that it was worked out from. Read as durations, the two
agree: the deadline runs for the time entered, the first warning for the time that the deadline
leaves, and the repeated warnings as often as their period fits into the time after the first one.
Hence no warning comes after the deadline.
-/

namespace BusinessProcess.TimeLimit

open BusinessProcess.Graph
open Duration (Lasts)

/-! ## Reading the bodies of timers -/

/-- The body of a timer that runs for a length of time tells the length. -/
theorem lengthBody_inj {first second : String} :
    lengthBody first = lengthBody second ↔ first = second := by
  simp only [lengthBody, ← String.toList_inj, String.toList_append, List.append_cancel_left_eq]

/-- A number is told by its digits. -/
theorem digits_inj {first second : Nat} :
    Text.Decimal.digits first = Text.Decimal.digits second ↔ first = second := by
  constructor
  · intro same
    rw [← Text.Decimal.value_digits first, same, Text.Decimal.value_digits]
  · rintro rfl
    rfl

/-- The body of a timer that repeats tells how often and at which intervals. -/
theorem repetitionBody_inj {first second : Nat} {period other : String} :
    repetitionBody first period = repetitionBody second other ↔
      first = second ∧ period = other := by
  have cut : ∀ (count : Nat) (every : String),
      Text.cutAt? '/' (repetitionBody count every).toList =
        some ('R' :: Text.Decimal.digits count, 'P' :: 'T' :: every.toList) := by
    intro count every
    refine Text.cutAt?_eq_some_iff.2 ⟨?_, ?_⟩
    · simp [repetitionBody, Text.Decimal.write]
    · have noMark : '/' ∉ Text.Decimal.digits count :=
        (Text.Decimal.numeral_digits count).not_mem (by decide)
      simp [noMark]
  constructor
  · intro same
    have parts := (cut first period).symm.trans (same ▸ cut second other)
    simpa [digits_inj, String.toList_inj] using parts
  · rintro ⟨rfl, rfl⟩
    rfl

/-! ## What a timer means -/

/-- What the timer of a limit means, given the values kept on the activity. -/
inductive Means (attributes : Attributes) : TimeLimit → TimerExpression → Prop where
  /-- The deadline runs for the time entered. -/
  | deadline {allowed : String} {total : Nat}
      (kept : attributes.get? (attributeKey .deadline) = some allowed)
      (lasts : Lasts allowed total) (positive : 0 < total) :
      Means attributes .deadline ⟨.duration, "PT" ++ allowed⟩
  /-- The first warning comes as long before the deadline as entered. -/
  | firstWarning {allowed lead left : String} {total early : Nat}
      (deadlineKept : attributes.get? (attributeKey .deadline) = some allowed)
      (kept : attributes.get? (attributeKey .firstWarning) = some lead)
      (deadlineLasts : Lasts allowed total) (lasts : Lasts lead early)
      (leftLasts : Lasts left (total - early)) (positive : 0 < total - early)
      (within : total - early ≤ total) :
      Means attributes .firstWarning ⟨.duration, "PT" ++ left⟩
  /-- The repeated warnings are as many as the period entered fits into the lead. -/
  | loopWarning {lead period : String} {early every count : Nat}
      (leadKept : attributes.get? (attributeKey .firstWarning) = some lead)
      (kept : attributes.get? (attributeKey .loopWarning) = some period)
      (leadLasts : Lasts lead early) (lasts : Lasts period every) (positive : 0 < every)
      (fits : count * every ≤ early) (noMore : early < (count + 1) * every) :
      Means attributes .loopWarning
        ⟨.cycle, "R" ++ Text.Decimal.write count ++ "/PT" ++ period⟩

/-- However the bodies of the two timers and the deadline kept are read, no repeated warning comes
after the deadline. -/
def EndInTime (attributes : Attributes) (first repeated : TimerExpression) : Prop :=
  ∀ {allowed left period : String} {total wait every count : Nat},
    attributes.get? (attributeKey .deadline) = some allowed → Lasts allowed total →
    first.body = "PT" ++ left → Lasts left wait →
    repeated.body = "R" ++ Text.Decimal.write count ++ "/PT" ++ period → Lasts period every →
    wait + count * every ≤ total

/-- A value that takes effect is kept and not blank. -/
theorem kept_of_stored? {attributes : Attributes} {limit : TimeLimit} {raw : String}
    (stored : stored? attributes limit = some raw) :
    attributes.get? limit.attributeKey = some raw ∧ Text.isBlankText raw = false := by
  obtain ⟨kept, filled⟩ := Option.filter_eq_some_iff.1 stored
  exact ⟨kept, by simpa using filled⟩

/-- A limit that another one is computed from takes effect. -/
theorem stored?_of_required {attributes : Attributes} {limit : TimeLimit} {raw : String}
    (needed : required attributes limit = .ok raw) : stored? attributes limit = some raw := by
  unfold required at needed
  split at needed
  next value stored =>
    cases needed
    exact stored
  next => cases needed

/-- A timer that is worked out from the values kept means what they say. -/
theorem means_of_derive {attributes : Attributes} {limit : TimeLimit} {raw : String}
    {expression : TimerExpression} (stored : stored? attributes limit = some raw)
    (done : derive attributes limit raw = .ok expression) :
    Means attributes limit expression := by
  obtain ⟨kept, filled⟩ := kept_of_stored? stored
  have notEmpty : raw.isEmpty = false := by
    rw [Bool.eq_false_iff, ne_eq, String.isEmpty_iff]
    rintro rfl
    cases filled
  cases limit with
  | deadline =>
      simp only [derive] at done
      split at done
      next => cases done
      next duration parsed =>
        split at done
        next => cases done
        next someTime =>
          cases done
          exact .deadline kept ⟨duration, parsed, rfl⟩ (Nat.pos_of_ne_zero someTime)
  | firstWarning =>
      simp only [derive] at done
      split at done
      next => cases done
      next allowed needed =>
        split at done
        next => cases done
        next left subtracted =>
          cases done
          obtain ⟨total, early, deadlineLasts, lasts, smaller, leftLasts⟩ :=
            Duration.lasts_of_subtractText notEmpty subtracted
          obtain ⟨deadlineKept, _⟩ := kept_of_stored? (stored?_of_required needed)
          exact .firstWarning deadlineKept kept deadlineLasts lasts leftLasts
            (Nat.sub_pos_of_lt smaller) (Nat.sub_le _ _)
  | loopWarning =>
      simp only [derive] at done
      split at done
      next => cases done
      next lead needed =>
        split at done
        next => cases done
        next count divided =>
          cases done
          obtain ⟨leadKept, leadFilled⟩ := kept_of_stored? (stored?_of_required needed)
          obtain ⟨every, early, lasts, leadLasts, positive, fits, noMore⟩ :=
            Duration.lasts_of_divideText leadFilled divided
          exact .loopWarning leadKept kept leadLasts lasts positive fits noMore

/-- Where the first warning and the repeated ones mean what the values kept say, no warning comes
after the deadline. -/
theorem Means.endInTime {attributes : Attributes} {first repeated : TimerExpression}
    (means : Means attributes .firstWarning first)
    (repeats : Means attributes .loopWarning repeated) : EndInTime attributes first repeated := by
  intro allowed left period total wait every count kept lasts firstBody leftLasts repeatedBody
    periodLasts
  cases means with
  | firstWarning deadlineKept leadKept deadlineLasts leadLasts leftLasts' positive within =>
      cases repeats with
      | loopWarning leadKept' periodKept leadLasts' periodLasts' positive' fits noMore =>
          cases lengthBody_inj.1 firstBody
          obtain ⟨rfl, rfl⟩ := repetitionBody_inj.1 repeatedBody
          cases kept.symm.trans deadlineKept
          cases leadKept.symm.trans leadKept'
          rw [lasts.unique deadlineLasts, leftLasts.unique leftLasts',
            periodLasts.unique periodLasts']
          rw [leadLasts'.unique leadLasts] at fits
          omega

/-- The timers that a process shows for its activities mean what the values kept say. -/
theorem Tuned.means {delegate : String} {start graph : Graph} {board : Board} {activity : Node}
    (tuned : Tuned delegate start board graph) (limitable : Limitable start activity)
    {limit : TimeLimit} {event : Node}
    (found : graph.node? (limit.boundaryId activity.id) = some event) :
    ∃ expression, event.kind = .event .boundary ∧ event.definitions = [.timer expression] ∧
      Means (board activity.id).attributes limit expression := by
  cases shown : (board activity.id).shown limit with
  | none =>
      have missing := (tuned.displays.missing_iff limitable limit).2 shown
      refine absurd (id_mem_of_node (mem_of_node? found)) ?_
      rw [id_of_node? found]
      exact missing .event
  | some expression =>
      have installed := tuned.displays.installed limitable rfl rfl shown
      obtain ⟨event', found', kind, _, _, definitions⟩ := installed.event
      cases found.symm.trans found'
      have inStep := tuned.inStep activity limitable.member limitable.isActivity
      obtain ⟨raw, stored, done⟩ := expected?_eq_some_iff.1 (inStep.expected?_eq_some shown)
      exact ⟨expression, kind, definitions, means_of_derive stored done⟩

/-! ## The run as a whole -/

/-- However the time limits of the nodes of a reached process were changed, each timer that is
installed for an activity means what the values kept for the activity say, and no repeated warning
comes after the deadline. -/
theorem Adjusted.timers_mean_limits {policy : Policy} {root : ElementId} {ledger : Ledger}
    (reached : Reached policy root ledger) (unlimited : Unlimited ledger.graph)
    (untimed : Untimed ledger.graph) {delegate : String} {graph : Graph}
    (adjusted : Adjusted delegate ledger.graph graph) {activity : Node}
    (member : activity ∈ ledger.graph.nodes) (isActivity : activity.kind.isActivity = true) :
    ∃ held, graph.node? activity.id = some held ∧
      (∀ limit event, graph.node? (limit.boundaryId activity.id) = some event →
        ∃ expression, event.kind = .event .boundary ∧ event.definitions = [.timer expression] ∧
          Means held.attributes limit expression) ∧
      (∀ event repeatedEvent first repeated,
        graph.node? (boundaryId .firstWarning activity.id) = some event →
        graph.node? (boundaryId .loopWarning activity.id) = some repeatedEvent →
        event.definitions = [.timer first] → repeatedEvent.definitions = [.timer repeated] →
        EndInTime held.attributes first repeated) := by
  have wellFormed := reached.sound.wellFormed
  obtain ⟨board, tuned⟩ := adjusted.exists_board wellFormed unlimited untimed
  have limitable : Limitable ledger.graph activity := ⟨wellFormed, unlimited, member, isActivity⟩
  obtain ⟨held, found, _, _, attributes⟩ :=
    tuned.displays.exists_node unlimited wellFormed.distinct member
  refine ⟨held, found, ?_, ?_⟩
  · intro limit event foundEvent
    rw [attributes isActivity]
    exact tuned.means limitable foundEvent
  · intro event repeatedEvent first repeated foundEvent foundRepeated definitions repetition
    obtain ⟨expression, _, same, means⟩ := tuned.means limitable foundEvent
    obtain ⟨expression', _, same', means'⟩ := tuned.means limitable foundRepeated
    cases definitions.symm.trans same
    cases repetition.symm.trans same'
    rw [attributes isActivity]
    exact means.endInTime means'

/-- With three hours allowed, a warning one and a half hours before the end and repeated ones every
forty minutes, the first warning waits for an hour and a half and two repeated ones follow. -/
theorem means_of_borrowed : ∃ graph, Adjusted "delegate" soleTask.graph graph ∧
    ∃ held event repeatedEvent, graph.node? ⟨"T"⟩ = some held ∧
      graph.node? ⟨"T_timer"⟩ = some event ∧ graph.node? ⟨"T_timer_loop"⟩ = some repeatedEvent ∧
      event.definitions = [.timer ⟨.duration, "PT1H30M"⟩] ∧
      repeatedEvent.definitions = [.timer ⟨.cycle, "R2/PT40M"⟩] ∧
      Means held.attributes .firstWarning ⟨.duration, "PT1H30M"⟩ ∧
      Means held.attributes .loopWarning ⟨.cycle, "R2/PT40M"⟩ ∧
      EndInTime held.attributes ⟨.duration, "PT1H30M"⟩ ⟨.cycle, "R2/PT40M"⟩ := by
  let task : Node := { Node.alone ⟨"T"⟩ (.task .user) with parent := some ⟨"P"⟩ }
  have member : task ∈ soleTask.graph.nodes := by decide
  let entries : List (TimeLimit × Option String) :=
    [(.deadline, some "3H"), (.firstWarning, some "1H30M"), (.loopWarning, some "40M")]
  have adjusted := (Adjusted.start : Adjusted "delegate" soleTask.graph _).enterAll member entries
  obtain ⟨held, found, means, endInTime⟩ := adjusted.timers_mean_limits
    (reached_soleTask ⟨true, true⟩) unlimited_soleTask untimed_soleTask member rfl
  have first : ((enterAll "delegate" task.id entries soleTask.graph).node? ⟨"T_timer"⟩).map
      Node.definitions = some [.timer ⟨.duration, "PT1H30M"⟩] := by
    decide +kernel
  have repetition : ((enterAll "delegate" task.id entries soleTask.graph).node?
      ⟨"T_timer_loop"⟩).map Node.definitions = some [.timer ⟨.cycle, "R2/PT40M"⟩] := by
    decide +kernel
  obtain ⟨event, foundEvent, definitions⟩ := Option.map_eq_some_iff.1 first
  obtain ⟨repeatedEvent, foundRepeated, repetitions⟩ := Option.map_eq_some_iff.1 repetition
  obtain ⟨expression, _, same, firstMeans⟩ := means .firstWarning event foundEvent
  obtain ⟨expression', _, same', repeatedMeans⟩ := means .loopWarning repeatedEvent foundRepeated
  cases definitions.symm.trans same
  cases repetitions.symm.trans same'
  exact ⟨_, adjusted, held, event, repeatedEvent, found, foundEvent, foundRepeated, definitions,
    repetitions, firstMeans, repeatedMeans,
    endInTime _ _ _ _ foundEvent foundRepeated definitions repetitions⟩

end BusinessProcess.TimeLimit
