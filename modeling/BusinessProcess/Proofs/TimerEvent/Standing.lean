import BusinessProcess.Proofs.TimeLimit.Dial
import BusinessProcess.TimerEvent

/-!
# What the fields of a timer event stand for

The fields of a timer event are set and cleared one at a time, and the expression is worked out in
one way after a field is set and in another after a field is cleared. Both ways lead to the same
priorities: a repetition comes first, anchored at the start date if there is one, then the start
date, then the duration. Only a duration that was just set comes before all others.
-/

namespace BusinessProcess.TimerEvent

/-- Different fields are kept in different attributes. -/
theorem attributeKey_inj {first second : Field} :
    first.attributeKey = second.attributeKey ↔ first = second := by
  cases first <;> cases second <;> decide

/-! ## Repetitions -/

/-- A text is a repetition `R<count>/<period>`: the count is made of digits, and the period is not
empty and has no slash. -/
structure IsRepetition (cycle count period : String) : Prop where
  whole : cycle = "R" ++ count ++ "/" ++ period
  digits : ∀ digit ∈ count.toList, digit.isDigit = true
  filled : period ≠ ""
  noSlash : '/' ∉ period.toList

theorem isRepeat_iff {text : List Char} :
    isRepeat text = true ↔
      ∃ count, text = 'R' :: count ∧ ∀ digit ∈ count, digit.isDigit = true := by
  constructor
  · intro isRepetition
    unfold isRepeat at isRepetition
    split at isRepetition
    next count => exact ⟨count, rfl, List.all_eq_true.1 isRepetition⟩
    next => cases isRepetition
  · rintro ⟨count, rfl, digits⟩
    exact List.all_eq_true.2 digits

/-- Exactly the repetitions have two parts. -/
theorem cycleParts?_eq_some_iff {cycle repetition period : String} :
    cycleParts? cycle = some (repetition, period) ↔
      ∃ count, repetition = "R" ++ count ∧ IsRepetition cycle count period := by
  constructor
  · intro parts
    have whole := eq_of_cycleParts? parts
    unfold cycleParts? at parts
    split at parts
    next before after cut =>
      split at parts
      next wellFormed =>
        obtain ⟨rfl, rfl⟩ := Prod.mk.inj (Option.some.inj parts)
        simp only [Bool.and_eq_true, Bool.not_eq_true'] at wellFormed
        obtain ⟨count, rfl, digits⟩ := isRepeat_iff.1 wellFormed.1.1
        have opening : String.ofList ('R' :: count) = "R" ++ String.ofList count := by
          rw [← String.toList_inj]
          simp
        refine ⟨String.ofList count, opening, opening ▸ whole, ?_, ?_, ?_⟩
        · simpa using digits
        · simpa using wellFormed.1.2
        · simpa using wellFormed.2
      next => cases parts
    next => cases parts
  · rintro ⟨count, rfl, rfl, digits, filled, noSlash⟩
    have noEarlierSlash : '/' ∉ 'R' :: count.toList := by
      rw [List.mem_cons, not_or]
      exact ⟨by decide, fun member => absurd (digits _ member) (by decide)⟩
    have cut : Text.cutAt? '/' ("R" ++ count ++ "/" ++ period).toList =
        some ('R' :: count.toList, period.toList) :=
      Text.cutAt?_eq_some_iff.2 ⟨by simp, noEarlierSlash⟩
    have isRepetition : isRepeat ('R' :: count.toList) = true :=
      isRepeat_iff.2 ⟨count.toList, rfl, digits⟩
    have notEmpty : period.toList.isEmpty = false := by simpa using filled
    simp only [cycleParts?, cut, isRepetition, notEmpty, List.contains_eq_mem, noSlash]
    simp

theorem exists_isRepetition_iff {cycle : String} :
    (cycleParts? cycle).isSome = true ↔ ∃ count period, IsRepetition cycle count period := by
  constructor
  · intro hasParts
    obtain ⟨⟨repetition, period⟩, parts⟩ := Option.isSome_iff_exists.1 hasParts
    obtain ⟨count, _, isRepetition⟩ := cycleParts?_eq_some_iff.1 parts
    exact ⟨count, period, isRepetition⟩
  · rintro ⟨count, period, isRepetition⟩
    rw [cycleParts?_eq_some_iff.2 ⟨count, rfl, isRepetition⟩]
    rfl

/-- A repetition is read in one way. -/
theorem IsRepetition.unique {cycle count period otherCount otherPeriod : String}
    (first : IsRepetition cycle count period) (second : IsRepetition cycle otherCount otherPeriod) :
    count = otherCount ∧ period = otherPeriod := by
  have parts := (cycleParts?_eq_some_iff.2 ⟨count, rfl, first⟩).symm.trans
    (cycleParts?_eq_some_iff.2 ⟨otherCount, rfl, second⟩)
  obtain ⟨sameCount, samePeriod⟩ := Prod.mk.inj (Option.some.inj parts)
  refine ⟨?_, samePeriod⟩
  simpa [← String.toList_inj] using sameCount

/-- A value may be entered for a field: if it is entered as a cycle, it is a repetition. -/
def Enterable (field : Field) (value : Option String) : Prop :=
  field = .cycle → ∀ cycle, value = some cycle → ∃ count period, IsRepetition cycle count period

theorem checkEntry_eq_ok_iff {field : Field} {value : Option String} :
    checkEntry field value = .ok () ↔ Enterable field value := by
  unfold checkEntry
  cases value with
  | none => exact iff_of_true rfl fun _ _ absent => nomatch absent
  | some text =>
      simp only [Enterable, Option.some.injEq, forall_eq', ← exists_isRepetition_iff]
      cases cycleParts? text <;> cases field <;> simp

/-- What may not be entered is a cycle that is not a repetition, and it is refused as such. -/
theorem checkEntry_of_not_enterable {field : Field} {value : Option String}
    (malformed : ¬Enterable field value) :
    ∃ text, field = .cycle ∧ value = some text ∧
      checkEntry field value = .error (.malformedCycle text) := by
  unfold checkEntry
  cases value with
  | none => exact absurd (fun _ _ absent => nomatch absent) malformed
  | some text =>
      simp only [Enterable, Option.some.injEq, forall_eq', ← exists_isRepetition_iff,
        Classical.not_imp, Bool.not_eq_true, Option.isSome_eq_false_iff] at malformed
      exact ⟨text, malformed.1, rfl, by simp [malformed.1, malformed.2]⟩

/-! ## Expressions -/

/-- What the stored attributes of an event stand for, apart from what was entered last: the
repetition, anchored at the start date if there is one, before the start date, before the
duration. -/
inductive Stands (attributes : Attributes) : Option TimerExpression → Prop
  | anchored {cycle count period start : String}
      (repeats : attributes.get? Field.cycle.attributeKey = some cycle)
      (isRepetition : IsRepetition cycle count period)
      (starts : attributes.get? Field.startDate.attributeKey = some start) :
      Stands attributes (some ⟨.cycle, "R" ++ count ++ "/" ++ start ++ "/" ++ period⟩)
  | repeating {cycle count period : String}
      (repeats : attributes.get? Field.cycle.attributeKey = some cycle)
      (isRepetition : IsRepetition cycle count period)
      (noStart : attributes.get? Field.startDate.attributeKey = none) :
      Stands attributes (some ⟨.cycle, cycle⟩)
  | dated {start : String}
      (noCycle : attributes.get? Field.cycle.attributeKey = none)
      (starts : attributes.get? Field.startDate.attributeKey = some start) :
      Stands attributes (some ⟨.date, start⟩)
  | lasting {duration : String}
      (noCycle : attributes.get? Field.cycle.attributeKey = none)
      (noStart : attributes.get? Field.startDate.attributeKey = none)
      (lasts : attributes.get? Field.duration.attributeKey = some duration) :
      Stands attributes (some ⟨.duration, duration⟩)
  | idle (noCycle : attributes.get? Field.cycle.attributeKey = none)
      (noStart : attributes.get? Field.startDate.attributeKey = none)
      (noDuration : attributes.get? Field.duration.attributeKey = none) :
      Stands attributes none

namespace Stands

/-- The stored attributes determine the expression, and no others do. -/
theorem unique {first second : Attributes} {left right : Option TimerExpression}
    (same : ∀ field : Field, first.get? field.attributeKey = second.get? field.attributeKey)
    (here : Stands first left) (there : Stands second right) : left = right := by
  have sameCycle := same .cycle
  have sameStart := same .startDate
  have sameDuration := same .duration
  -- The two sides rest on the same fields, so only two repetitions are left to compare.
  cases here <;> cases there <;> simp_all
  case anchored.anchored reading _ _ other _ =>
    obtain ⟨rfl, rfl⟩ := reading.unique other
    rfl

end Stands

/-- Every stored field is filled, and a stored cycle is a repetition. -/
structure Sound (attributes : Attributes) : Prop where
  filled : ∀ (field : Field) raw, attributes.get? field.attributeKey = some raw →
    Text.isBlankText raw = false
  repeats : ∀ cycle, attributes.get? Field.cycle.attributeKey = some cycle →
    ∃ count period, IsRepetition cycle count period

namespace Sound

variable {attributes : Attributes}

/-- Where no blank text is stored, a field is filled if it is stored. -/
theorem filled?_eq (sound : Sound attributes) (field : Field) :
    attributes.filled? field.attributeKey = attributes.get? field.attributeKey := by
  rw [Attributes.filled?]
  cases stored : attributes.get? field.attributeKey with
  | none => rfl
  | some raw =>
      refine Option.filter_eq_some_iff.2 ⟨rfl, ?_⟩
      rw [sound.filled field raw stored, Bool.not_false]

theorem stands_cycle (sound : Sound attributes) {cycle : String}
    (repeats : attributes.get? Field.cycle.attributeKey = some cycle) :
    Stands attributes (expression? attributes .cycle) := by
  obtain ⟨count, period, isRepetition⟩ := sound.repeats cycle repeats
  have parts := cycleParts?_eq_some_iff.2 ⟨count, rfl, isRepetition⟩
  simp only [expression?, sound.filled?_eq, repeats, Option.map_some, parts]
  cases starts : attributes.get? Field.startDate.attributeKey with
  | none => exact .repeating repeats isRepetition starts
  | some start => exact .anchored repeats isRepetition starts

theorem stands_startDate (sound : Sound attributes) {start : String}
    (starts : attributes.get? Field.startDate.attributeKey = some start) :
    Stands attributes (expression? attributes .startDate) := by
  simp only [expression?, sound.filled?_eq, starts, Option.map_some]
  cases repeats : attributes.get? Field.cycle.attributeKey with
  | none => exact .dated repeats starts
  | some cycle =>
      obtain ⟨count, period, isRepetition⟩ := sound.repeats cycle repeats
      have parts := cycleParts?_eq_some_iff.2 ⟨count, rfl, isRepetition⟩
      simp only [Option.bind_some, parts]
      exact .anchored repeats isRepetition starts

/-- What is worked out after a field is cleared is what the attributes stand for. -/
theorem stands_fallback (sound : Sound attributes) : Stands attributes (fallback? attributes) := by
  simp only [fallback?, sound.filled?_eq, List.find?_cons]
  cases repeats : attributes.get? Field.cycle.attributeKey with
  | some cycle => exact sound.stands_cycle repeats
  | none =>
      cases starts : attributes.get? Field.startDate.attributeKey with
      | some start => exact sound.stands_startDate starts
      | none =>
          cases lasts : attributes.get? Field.duration.attributeKey with
          | none => exact .idle repeats starts lasts
          | some duration =>
              simp only [expression?, sound.filled?_eq, lasts]
              exact .lasting repeats starts lasts

end Sound

/-! ## Entering a field -/

/-- The expression that follows once `value` is entered for a field, given the attributes that are
stored then. -/
inductive Follows (attributes : Attributes) (field : Field) (value : Option String) :
    Option TimerExpression → Prop
  | duration {raw : String} (isDuration : field = .duration) (entered : value = some raw) :
      Follows attributes field value (some ⟨.duration, raw⟩)
  | standing {expression : Option TimerExpression} (other : field = .duration → value = none)
      (stands : Stands attributes expression) : Follows attributes field value expression

theorem Follows.stands {attributes : Attributes} {field : Field} {value : Option String}
    {expression : Option TimerExpression} (other : field ≠ .duration)
    (follows : Follows attributes field value expression) : Stands attributes expression := by
  cases follows with
  | duration isDuration _ => exact absurd isDuration other
  | standing _ stands => exact stands

section Enter

variable {attributes : Attributes} {field : Field} {value : Option String}

/-- The field entered is stored as entered, and every other field is as before. -/
theorem get?_enter (attributes : Attributes) (field other : Field) (value : Option String) :
    (enter attributes field value).1.get? other.attributeKey =
      if other = field then value else attributes.get? other.attributeKey := by
  cases value with
  | none => simp only [enter, Store.get?_erase, attributeKey_inj]
  | some raw => simp only [enter, Store.get?_insert, attributeKey_inj]

/-- Entering what may be entered keeps the stored fields sound. -/
theorem Sound.enter (sound : Sound attributes)
    (filled : ∀ raw, value = some raw → Text.isBlankText raw = false)
    (enterable : Enterable field value) : Sound (enter attributes field value).1 where
  filled other raw stored := by
    rw [get?_enter] at stored
    split at stored
    · exact filled raw stored
    · exact sound.filled other raw stored
  repeats cycle stored := by
    rw [get?_enter] at stored
    split at stored
    next same => exact enterable same.symm cycle stored
    next => exact sound.repeats cycle stored

theorem Sound.follows_enter (sound : Sound attributes)
    (filled : ∀ raw, value = some raw → Text.isBlankText raw = false)
    (enterable : Enterable field value) :
    Follows (TimerEvent.enter attributes field value).1 field value
      (TimerEvent.enter attributes field value).2 := by
  have after := sound.enter filled enterable
  have stored := get?_enter attributes field field value
  rw [if_pos rfl] at stored
  cases value with
  | none => exact .standing (fun _ => rfl) after.stands_fallback
  | some raw =>
      cases field with
      | cycle => exact .standing (fun isDuration => nomatch isDuration) (after.stands_cycle stored)
      | startDate =>
          exact .standing (fun isDuration => nomatch isDuration) (after.stands_startDate stored)
      | duration =>
          have expression : (TimerEvent.enter attributes .duration (some raw)).2 =
              some ⟨.duration, raw⟩ := by
            rw [TimerEvent.enter] at after stored ⊢
            simp only [expression?, after.filled?_eq, stored, Option.map_some]
          rw [expression]
          exact .duration rfl rfl

/-- A start date and a cycle may be entered in either order. -/
theorem Sound.enter_startDate_cycle (sound : Sound attributes) {date cycle : Option String}
    (dateFilled : ∀ raw, date = some raw → Text.isBlankText raw = false)
    (cycleFilled : ∀ raw, cycle = some raw → Text.isBlankText raw = false)
    (enterable : Enterable .cycle cycle) :
    (TimerEvent.enter (TimerEvent.enter attributes .startDate date).1 .cycle cycle).2 =
      (TimerEvent.enter (TimerEvent.enter attributes .cycle cycle).1 .startDate date).2 := by
  have anyDate : Enterable .startDate date := fun isCycle => nomatch isCycle
  have dateFirst := (sound.enter dateFilled anyDate).follows_enter cycleFilled enterable
  have cycleFirst := (sound.enter cycleFilled enterable).follows_enter dateFilled anyDate
  refine (dateFirst.stands (by decide)).unique (fun field => ?_) (cycleFirst.stands (by decide))
  simp only [get?_enter]
  cases field <;> rfl

end Enter

end BusinessProcess.TimerEvent
