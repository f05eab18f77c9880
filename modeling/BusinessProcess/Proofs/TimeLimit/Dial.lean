import BusinessProcess.Proofs.Text.Trimming
import BusinessProcess.TimeLimit.Change

/-!
# The time limits of one activity

As far as its time limits go, an activity is a dial: the values kept for the limits, and for each
limit the timer that is installed. Entering a value turns the dial. What is installed for the
deadline and the first warning is always what follows from the values kept; the repeated warnings
may be missing while the first warning cannot be worked out.
-/

namespace BusinessProcess

namespace TimeLimit

/-! ## Values kept -/

/-- Different limits are kept in different attributes. -/
theorem attributeKey_inj {first second : TimeLimit} :
    first.attributeKey = second.attributeKey ↔ first = second := by
  cases first <;> cases second <;> decide

/-- An entered value is kept, and the other limits keep theirs. -/
theorem stored?_insert {attributes : Attributes} {limit : TimeLimit} {raw : String}
    (filled : Text.isBlankText raw = false) (other : TimeLimit) :
    stored? (attributes.insert limit.attributeKey raw) other =
      if other = limit then some raw else stored? attributes other := by
  rw [stored?, Attributes.filled?, Store.get?_insert]
  by_cases same : other = limit
  · rw [if_pos (attributeKey_inj.2 same), if_pos same]
    simp [Option.filter, filled]
  · rw [if_neg (mt attributeKey_inj.1 same), if_neg same]
    rfl

/-- An erased value is gone, and the other limits keep theirs. -/
theorem stored?_erase (attributes : Attributes) (limit other : TimeLimit) :
    stored? (attributes.erase limit.attributeKey) other =
      if other = limit then none else stored? attributes other := by
  rw [stored?, Attributes.filled?, Store.get?_erase]
  by_cases same : other = limit
  · rw [if_pos (attributeKey_inj.2 same), if_pos same]
    rfl
  · rw [if_neg (mt attributeKey_inj.1 same), if_neg same]
    rfl

/-- A timer follows from its value and from what is kept for the limit that it is computed
from. -/
theorem derive_congr {first second : Attributes} {limit : TimeLimit} {raw : String}
    (same : ∀ earlier, limit.prerequisite? = some earlier →
      stored? first earlier = stored? second earlier) :
    derive first limit raw = derive second limit raw := by
  cases limit with
  | deadline => rfl
  | firstWarning => simp only [derive, required, same .deadline rfl]
  | loopWarning => simp only [derive, required, same .firstWarning rfl]

/-- What takes effect for a limit according to the values kept. -/
def due? (attributes : Attributes) (limit : TimeLimit) : Option Setting :=
  match stored? attributes limit with
  | none => none
  | some raw =>
      match derive attributes limit raw with
      | .ok expression => some ⟨limit, raw, expression⟩
      | .error _ => none

/-- The timer of a limit according to the values kept. -/
def expected? (attributes : Attributes) (limit : TimeLimit) : Option TimerExpression :=
  (due? attributes limit).map Setting.expression

/-- What takes effect for a limit takes effect for no other one. -/
theorem limit_of_due? {attributes : Attributes} {limit : TimeLimit} {setting : Setting}
    (due : due? attributes limit = some setting) : setting.limit = limit := by
  unfold due? at due
  split at due
  next => cases due
  next =>
    split at due
    next =>
      cases due
      rfl
    next => cases due

/-- A timer is expected exactly if a value is kept that it can be worked out from. -/
theorem expected?_eq_some_iff {attributes : Attributes} {limit : TimeLimit}
    {expression : TimerExpression} : expected? attributes limit = some expression ↔
      ∃ raw, stored? attributes limit = some raw ∧
        derive attributes limit raw = .ok expression := by
  rw [expected?, due?]
  cases stored? attributes limit with
  | none => simp
  | some raw => cases done : derive attributes limit raw <;> simp [done]

/-- The expected timer follows from the values kept for the limit and for the one that it is
computed from. -/
theorem expected?_congr {first second : Attributes} {limit : TimeLimit}
    (same : stored? first limit = stored? second limit)
    (sameEarlier : ∀ earlier, limit.prerequisite? = some earlier →
      stored? first earlier = stored? second earlier) :
    expected? first limit = expected? second limit := by
  simp only [expected?, due?, same, derive_congr sameEarlier]

/-- A value kept for a limit changes what is expected only for the limit and for the one that is
computed from it. -/
theorem expected?_insert_of_ne {attributes : Attributes} {limit other : TimeLimit} {raw : String}
    (filled : Text.isBlankText raw = false) (differs : other ≠ limit)
    (independent : other.prerequisite? ≠ some limit) :
    expected? (attributes.insert limit.attributeKey raw) other = expected? attributes other := by
  refine expected?_congr ?_ fun earlier depends => ?_
  · rw [stored?_insert filled, if_neg differs]
  · have distinct : earlier ≠ limit := by
      rintro rfl
      exact independent depends
    rw [stored?_insert filled, if_neg distinct]

/-- A value kept for a limit is what its timer follows from. -/
theorem expected?_insert_self {attributes : Attributes} {limit : TimeLimit} {raw : String}
    {expression : TimerExpression} (filled : Text.isBlankText raw = false)
    (done : derive attributes limit raw = .ok expression) :
    expected? (attributes.insert limit.attributeKey raw) limit = some expression := by
  refine expected?_eq_some_iff.2 ⟨raw, by rw [stored?_insert filled, if_pos rfl], ?_⟩
  rw [← done]
  refine derive_congr fun earlier depends => ?_
  have distinct : earlier ≠ limit := by
    rintro rfl
    cases earlier <;> cases depends
  rw [stored?_insert filled, if_neg distinct]

/-- An erased value changes what is expected only for the limit and for the one that is computed
from it. -/
theorem expected?_erase_of_ne {attributes : Attributes} {limit other : TimeLimit}
    (differs : other ≠ limit) (independent : other.prerequisite? ≠ some limit) :
    expected? (attributes.erase limit.attributeKey) other = expected? attributes other := by
  refine expected?_congr ?_ fun earlier depends => ?_
  · rw [stored?_erase, if_neg differs]
  · have distinct : earlier ≠ limit := by
      rintro rfl
      exact independent depends
    rw [stored?_erase, if_neg distinct]

/-- Nothing is expected where no value is kept. -/
theorem expected?_of_stored?_eq_none {attributes : Attributes} {limit : TimeLimit}
    (missing : stored? attributes limit = none) : expected? attributes limit = none := by
  simp only [expected?, due?, missing, Option.map_none]

/-- Nothing is expected where the limit that a timer is computed from is not kept. -/
theorem expected?_of_prerequisite {attributes : Attributes} {limit earlier : TimeLimit}
    (depends : limit.prerequisite? = some earlier) (missing : stored? attributes earlier = none) :
    expected? attributes limit = none := by
  cases found : expected? attributes limit with
  | none => rfl
  | some expression =>
      obtain ⟨raw, _, done⟩ := expected?_eq_some_iff.1 found
      cases limit with
      | deadline => cases depends
      | firstWarning =>
          cases depends
          simp [derive, required, missing] at done
      | loopWarning =>
          cases depends
          simp [derive, required, missing] at done

/-! ## Turning the dial -/

/-- The time limits of an activity: its attributes and the timers installed. -/
@[ext] structure Dial where
  attributes : Attributes
  shown : TimeLimit → Option TimerExpression

namespace Dial

/-- The dial with the given timer, or none, installed for a limit. -/
def put (dial : Dial) (limit : TimeLimit) (expression : Option TimerExpression) : Dial :=
  { dial with shown := fun other => if other = limit then expression else dial.shown other }

/-- The dial after the given limits were worked out again, each before those that depend on it.
Once one is missing, it and all after it show nothing. -/
def refresh (dial : Dial) : (reached : Bool) → List TimeLimit → Dial
  | _, [] => dial
  | false, limit :: rest => (dial.put limit none).refresh false rest
  | true, limit :: rest =>
      match due? dial.attributes limit with
      | some setting => (dial.put limit (some setting.expression)).refresh true rest
      | none => (dial.put limit none).refresh false rest

/-- The dial after the value kept for a limit was erased. -/
def clear (dial : Dial) (limit : TimeLimit) : Dial :=
  let erased := { dial with attributes := dial.attributes.erase limit.attributeKey }
  (erased.put limit none).refresh false limit.dependents

/-- The dial after a value was kept for a limit and its timer installed. -/
def set (dial : Dial) (limit : TimeLimit) (raw : String) (expression : TimerExpression) : Dial :=
  let kept := { dial with attributes := dial.attributes.insert limit.attributeKey raw }
  (kept.put limit (some expression)).refresh true limit.dependents

/-- The outcome of entering a value for a limit, and the dial after it. -/
def enter (dial : Dial) (limit : TimeLimit) (value : Option String) : Outcome × Dial :=
  match Text.entered? value with
  | none => (.removed, dial.clear limit)
  | some raw =>
      match derive dial.attributes limit raw with
      | .error obstacle => (.skipped obstacle, dial)
      | .ok expression => (.installed ⟨limit, raw, expression⟩, dial.set limit raw expression)

@[simp] theorem attributes_put (dial : Dial) (limit : TimeLimit)
    (expression : Option TimerExpression) : (dial.put limit expression).attributes =
      dial.attributes :=
  rfl

/-- What was installed for a limit before does not matter. -/
@[simp] theorem put_put (dial : Dial) (limit : TimeLimit)
    (first second : Option TimerExpression) :
    (dial.put limit first).put limit second = dial.put limit second := by
  refine Dial.ext rfl ?_
  funext other
  simp only [put]
  split <;> rfl

@[simp] theorem attributes_refresh (dial : Dial) (reached : Bool) (limits : List TimeLimit) :
    (dial.refresh reached limits).attributes = dial.attributes := by
  induction limits generalizing dial reached with
  | nil => cases reached <;> rfl
  | cons limit rest inductionHypothesis =>
      cases reached with
      | false => rw [refresh, inductionHypothesis, attributes_put]
      | true => rw [refresh]; split <;> rw [inductionHypothesis, attributes_put]

/-- Working out a limit again shows what is expected, or nothing once a limit before it is
missing. -/
theorem refresh_cons (dial : Dial) (reached : Bool) (limit : TimeLimit) (rest : List TimeLimit) :
    dial.refresh reached (limit :: rest) =
      (dial.put limit (if reached then expected? dial.attributes limit else none)).refresh
        (reached && (expected? dial.attributes limit).isSome) rest := by
  cases reached with
  | false => rfl
  | true =>
      rw [refresh, expected?]
      cases due? dial.attributes limit <;> rfl

/-! ## What is kept -/

/-- The values kept are as they were entered, and a deadline that is kept can be worked out. -/
structure Accepted (dial : Dial) : Prop where
  entered : ∀ limit : TimeLimit, ∀ raw, dial.attributes.get? limit.attributeKey = some raw →
    Text.entered? (some raw) = some raw
  usable : ∀ raw, dial.attributes.get? (attributeKey .deadline) = some raw →
    ∃ expression, derive dial.attributes .deadline raw = .ok expression

@[simp] theorem attributes_clear (dial : Dial) (limit : TimeLimit) :
    (dial.clear limit).attributes = dial.attributes.erase limit.attributeKey := by
  rw [clear, attributes_refresh, attributes_put]

@[simp] theorem attributes_set (dial : Dial) (limit : TimeLimit) (raw : String)
    (expression : TimerExpression) : (dial.set limit raw expression).attributes =
      dial.attributes.insert limit.attributeKey raw := by
  rw [set, attributes_refresh, attributes_put]

/-- Whatever is entered, the values kept stay accepted. -/
theorem Accepted.enter {dial : Dial} (accepted : dial.Accepted) (limit : TimeLimit)
    (value : Option String) : (dial.enter limit value).2.Accepted := by
  unfold Dial.enter
  cases entered : Text.entered? value with
  | none =>
      have kept : ∀ {key raw}, (dial.clear limit).attributes.get? key = some raw →
          dial.attributes.get? key = some raw := by
        intro key raw present
        rw [attributes_clear, Store.get?_erase] at present
        split at present
        next => cases present
        next => exact present
      exact ⟨fun other raw present => accepted.entered other raw (kept present),
        fun raw present => accepted.usable raw (kept present)⟩
  | some raw =>
      cases done : derive dial.attributes limit raw with
      | error obstacle =>
          simp only [done]
          exact accepted
      | ok expression =>
          have kept : ∀ {other : TimeLimit} {value : String},
              (dial.set limit raw expression).attributes.get? other.attributeKey = some value →
                (other = limit ∧ value = raw) ∨
                  dial.attributes.get? other.attributeKey = some value := by
            intro other value present
            rw [attributes_set, Store.get?_insert] at present
            split at present
            next same => exact .inl ⟨attributeKey_inj.1 same, (Option.some.inj present).symm⟩
            next => exact .inr present
          simp only [done]
          constructor
          · intro other value present
            rcases kept present with ⟨_, rfl⟩ | before
            · exact Text.entered?_of_entered? entered
            · exact accepted.entered other value before
          · intro value present
            rcases kept present with ⟨rfl, rfl⟩ | before
            · exact ⟨expression, done⟩
            · exact accepted.usable value before

/-- A value that is kept is not blank. -/
theorem Accepted.stored?_eq {dial : Dial} (accepted : dial.Accepted) (limit : TimeLimit) :
    stored? dial.attributes limit = dial.attributes.get? limit.attributeKey := by
  rw [stored?, Attributes.filled?]
  cases present : dial.attributes.get? limit.attributeKey with
  | none => rfl
  | some raw =>
      have filled := Text.isBlankText_of_entered? (accepted.entered limit raw present)
      simp [filled]

/-! ## What is shown -/

/-- The timers shown follow from the values kept, but for repeated warnings that have no first
warning to start at: these may be missing. -/
structure InStep (dial : Dial) : Prop where
  deadline : dial.shown .deadline = expected? dial.attributes .deadline
  firstWarning : dial.shown .firstWarning = expected? dial.attributes .firstWarning
  loopWarning : dial.shown .loopWarning = expected? dial.attributes .loopWarning ∨
    (dial.shown .loopWarning = none ∧ expected? dial.attributes .firstWarning = none)

/-- A timer that is shown is the expected one. -/
theorem InStep.expected?_eq_some {dial : Dial} (inStep : dial.InStep) {limit : TimeLimit}
    {expression : TimerExpression} (shown : dial.shown limit = some expression) :
    expected? dial.attributes limit = some expression := by
  cases limit with
  | deadline => rw [← inStep.deadline, shown]
  | firstWarning => rw [← inStep.firstWarning, shown]
  | loopWarning =>
      rcases inStep.loopWarning with same | ⟨absent, _⟩
      · rw [← same, shown]
      · cases absent.symm.trans shown

/-- A timer that is not shown is not expected either, or it belongs to repeated warnings without a
first one. -/
theorem InStep.expected?_eq_none {dial : Dial} (inStep : dial.InStep) {limit : TimeLimit}
    (absent : dial.shown limit = none) : expected? dial.attributes limit = none ∨
      (limit = .loopWarning ∧ expected? dial.attributes .firstWarning = none) := by
  cases limit with
  | deadline => exact .inl (by rw [← inStep.deadline, absent])
  | firstWarning => exact .inl (by rw [← inStep.firstWarning, absent])
  | loopWarning =>
      rcases inStep.loopWarning with same | ⟨_, noFirst⟩
      · exact .inl (by rw [← same, absent])
      · exact .inr ⟨rfl, noFirst⟩

/-- Clearing a limit takes it and those that follow from it off the dial. -/
theorem shown_clear (dial : Dial) (limit other : TimeLimit) :
    (dial.clear limit).shown other =
      if other = limit ∨ other ∈ limit.dependents then none else dial.shown other := by
  cases limit <;> cases other <;> rfl

/-- Clearing a limit keeps a dial in step. -/
theorem InStep.clear {dial : Dial} (inStep : dial.InStep) (limit : TimeLimit) :
    (dial.clear limit).InStep := by
  have gone : stored? (dial.attributes.erase limit.attributeKey) limit = none := by
    rw [stored?_erase, if_pos rfl]
  have nothing := expected?_of_stored?_eq_none gone
  have nothingLater : ∀ later, later.prerequisite? = some limit →
      expected? (dial.attributes.erase limit.attributeKey) later = none :=
    fun later depends => expected?_of_prerequisite depends gone
  have same : ∀ other, other ≠ limit → other.prerequisite? ≠ some limit →
      expected? (dial.attributes.erase limit.attributeKey) other =
        expected? dial.attributes other :=
    fun other differs independent => expected?_erase_of_ne differs independent
  cases limit with
  | deadline =>
      refine ⟨?_, ?_, .inr ⟨?_, ?_⟩⟩
      · simp [shown_clear, dependents, nothing]
      · simp [shown_clear, dependents, nothingLater .firstWarning rfl]
      · simp [shown_clear, dependents]
      · simp [nothingLater .firstWarning rfl]
  | firstWarning =>
      refine ⟨?_, ?_, .inl ?_⟩
      · simp [shown_clear, dependents, inStep.deadline,
          same .deadline (by decide) (by decide)]
      · simp [shown_clear, dependents, nothing]
      · simp [shown_clear, dependents, nothingLater .loopWarning rfl]
  | loopWarning =>
      refine ⟨?_, ?_, .inl ?_⟩
      · simp [shown_clear, dependents, inStep.deadline,
          same .deadline (by decide) (by decide)]
      · simp [shown_clear, dependents, inStep.firstWarning,
          same .firstWarning (by decide) (by decide)]
      · simp [shown_clear, dependents, nothing]

/-- Setting a limit keeps a dial in step. -/
theorem InStep.set {dial : Dial} (inStep : dial.InStep) {limit : TimeLimit} {raw : String}
    {expression : TimerExpression} (filled : Text.isBlankText raw = false)
    (done : derive dial.attributes limit raw = .ok expression) :
    (dial.set limit raw expression).InStep := by
  have here := expected?_insert_self filled done
  have same : ∀ other, other ≠ limit → other.prerequisite? ≠ some limit →
      expected? (dial.attributes.insert limit.attributeKey raw) other =
        expected? dial.attributes other :=
    fun other differs independent => expected?_insert_of_ne filled differs independent
  cases limit with
  | deadline =>
      refine ⟨?_, ?_, ?_⟩
      · simp [Dial.set, dependents, refresh_cons, refresh, put, here]
      · simp [Dial.set, dependents, refresh_cons, refresh, put]
      · cases first : expected? (dial.attributes.insert (attributeKey .deadline) raw)
            .firstWarning with
        | none => exact .inr (by simp [Dial.set, dependents, refresh_cons, refresh, put, first])
        | some timer =>
            exact .inl (by simp [Dial.set, dependents, refresh_cons, refresh, put, first])
  | firstWarning =>
      refine ⟨?_, ?_, .inl ?_⟩
      · simp [Dial.set, dependents, refresh_cons, refresh, put, inStep.deadline,
          same .deadline (by decide) (by decide)]
      · simp [Dial.set, dependents, refresh_cons, refresh, put, here]
      · simp [Dial.set, dependents, refresh_cons, refresh, put]
  | loopWarning =>
      refine ⟨?_, ?_, .inl ?_⟩
      · simp [Dial.set, dependents, refresh, put, inStep.deadline,
          same .deadline (by decide) (by decide)]
      · simp [Dial.set, dependents, refresh, put, inStep.firstWarning,
          same .firstWarning (by decide) (by decide)]
      · simp [Dial.set, dependents, refresh, put, here]

/-- Whatever is entered, a dial stays in step. -/
theorem InStep.enter {dial : Dial} (inStep : dial.InStep) (limit : TimeLimit)
    (value : Option String) : (dial.enter limit value).2.InStep := by
  unfold Dial.enter
  cases entered : Text.entered? value with
  | none => exact inStep.clear limit
  | some raw =>
      cases done : derive dial.attributes limit raw with
      | error obstacle =>
          simp only [done]
          exact inStep
      | ok expression =>
          simp only [done]
          exact inStep.set (Text.isBlankText_of_entered? entered) done

end Dial

end TimeLimit

end BusinessProcess
