import BusinessProcess.Proofs.Duration.Difference

/-!
# Calculating with written durations

Texts are subtracted and divided as the minutes that they last. A text that reads as no duration is
refused, the whole before the reduction and the divisor before the window. What is empty or blank
is decided before anything is read: an empty reduction takes nothing away, nothing fits into a blank
window, and a blank divisor is missed.
-/

namespace BusinessProcess.Duration

/-! ## Texts that read as no duration -/

/-- The text reads as no duration. -/
def Unread (text : String) : Prop :=
  ∀ minutes, ¬ Lasts text minutes

/-- Why a text that reads as no duration is refused. -/
def refusal (text : String) : DurationError :=
  if text = "" then .empty else .malformed text

/-- Exactly the texts that read as no duration are refused, and for one reason. -/
theorem unread_iff {text : String} : Unread text ↔ parse text = .error (refusal text) := by
  constructor
  · intro unread
    cases parsed : parse text with
    | ok duration => exact absurd ⟨duration, parsed, rfl⟩ (unread duration.totalMinutes)
    | error error =>
        rw [refusal]
        split
        next isEmpty =>
          rw [isEmpty] at parsed
          cases parsed
          rfl
        next filled => rw [error_of_parse filled parsed]
  · rintro refused minutes ⟨duration, parsed, -⟩
    rw [refused] at parsed
    cases parsed

/-- A text lasts some minutes, or it reads as no duration. -/
theorem lasts_or_unread (text : String) : (∃ minutes, Lasts text minutes) ∨ Unread text := by
  rw [Unread, ← not_exists]
  exact Classical.em _

/-! ## Subtraction -/

/-- The minutes that a reduction takes away: none if it is empty, otherwise those it lasts. -/
inductive Takes : String → Nat → Prop
  | nothing : Takes "" 0
  | time {reduction : String} {minutes : Nat} (lasts : Lasts reduction minutes) :
      Takes reduction minutes

/-- A reduction takes away one number of minutes at most. -/
theorem Takes.unique {reduction : String} {first second : Nat} (takes : Takes reduction first)
    (other : Takes reduction second) : first = second := by
  have emptyUnread : Unread "" := unread_iff.2 rfl
  cases takes with
  | nothing =>
      cases other with
      | nothing => rfl
      | time lasts => exact absurd lasts (emptyUnread second)
  | time lasts =>
      cases other with
      | nothing => exact absurd lasts (emptyUnread first)
      | time lastsToo => exact lasts.unique lastsToo

/-- Subtracting the texts agrees with subtracting their minutes. -/
structure SubtractsInMinutes (reduction whole : String) : Prop where
  /-- What is left is some time, the difference, written as durations are written. -/
  difference : ∀ left, subtractText reduction whole = .ok left →
    ∃ total taken duration, Lasts whole total ∧ Takes reduction taken ∧ taken < total ∧
      duration.totalMinutes = total - taken ∧ left = duration.display ∧ parse left = .ok duration
  /-- If nothing is to be taken away, the whole is left, up to zeros in front. -/
  unreduced : reduction = "" → ∀ left, subtractText reduction whole = .ok left →
    Shortens whole left
  /-- Some time has to be left. -/
  exhausted : ∀ total taken, Lasts whole total → Takes reduction taken → total ≤ taken →
    ∃ error, subtractText reduction whole = .error error
  /-- The whole is read first. -/
  wholeUnread : Unread whole → subtractText reduction whole = .error (refusal whole)
  /-- The reduction is read after the whole, unless it is empty. -/
  reductionUnread : ∀ total, Lasts whole total → reduction ≠ "" → Unread reduction →
    subtractText reduction whole = .error (.malformed reduction)
  /-- Something is left exactly of a whole that lasts some time or of durations with a
  difference. -/
  answered : (∃ left, subtractText reduction whole = .ok left) ↔
    (reduction = "" ∧ ∃ total, Lasts whole total ∧ 0 < total) ∨
    ∃ total taken, parse whole = .ok total ∧ parse reduction = .ok taken ∧
      ¬ Mixes total taken ∧ ¬ Exhausts total taken

/-- Whatever the reduction, the whole has to be a duration. -/
theorem subtractText_of_unread {reduction whole : String} (unread : Unread whole) :
    subtractText reduction whole = .error (refusal whole) := by
  rw [subtractText, unread_iff.1 unread]
  rfl

/-- An empty reduction leaves a duration that takes some time. -/
theorem subtractText_empty_eq_ok_iff {whole left : String} : subtractText "" whole = .ok left ↔
    ∃ total, parse whole = .ok total ∧ 0 < total.totalMinutes ∧ left = total.display := by
  rw [subtractText, bind_eq_ok_iff]
  apply exists_congr
  intro total
  apply and_congr_right
  intro _
  rw [if_pos (String.isEmpty_iff.2 rfl), bind_eq_ok_iff]
  have minutesHeld : (total.minutes.map fun minutes => (minutes.toNat : Int)).getD 0 =
      amount total.minutes := by
    cases total.minutes <;> rfl
  have hoursSmall := amount_lt total.hours
  have minutesSmall := amount_lt total.minutes
  have made : total.totalMinutes = amount total.hours * 60 + amount total.minutes := rfl
  obtain ⟨out, failed⟩ | ⟨inTime, remaining, done, -⟩ :=
    ofRemaining_cases (amount total.hours) (total.minutes.map fun minutes => (minutes.toNat : Int))
      (by omega) (by omega) (by omega)
  · rw [failed]
    constructor
    · rintro ⟨_, impossible, -⟩
      cases impossible
    · rintro ⟨someTime, -⟩
      omega
  · rw [done]
    constructor
    · rintro ⟨_, -, ⟨⟩⟩
      exact ⟨by omega, rfl⟩
    · rintro ⟨-, rfl⟩
      exact ⟨remaining, rfl, rfl⟩

/-- Something is left where neither units are mixed nor time runs out. -/
theorem exists_subtract_eq_ok_iff {whole reduction : Duration} :
    (∃ left, whole.subtract reduction = .ok left) ↔
      ¬ Mixes whole reduction ∧ ¬ Exhausts whole reduction := by
  have outcome := outcome_subtract whole reduction
  generalize whole.subtract reduction = result at outcome
  cases outcome with
  | mixed mixes inTime => exact iff_of_false nofun fun ⟨plain, _⟩ => plain mixes
  | exhausted plain exhausts => exact iff_of_false nofun fun ⟨_, inTime⟩ => inTime exhausts
  | left left plain inTime difference => exact iff_of_true ⟨left, rfl⟩ ⟨plain, inTime⟩

/-- What is left lasts for the difference. -/
theorem difference_of_subtractText {reduction whole left : String}
    (done : subtractText reduction whole = .ok left) :
    ∃ total taken duration, Lasts whole total ∧ Takes reduction taken ∧ taken < total ∧
      duration.totalMinutes = total - taken ∧ left = duration.display ∧
      parse left = .ok duration := by
  by_cases isEmpty : reduction = ""
  · subst isEmpty
    obtain ⟨total, wholeRead, someTime, rfl⟩ := subtractText_empty_eq_ok_iff.1 done
    exact ⟨_, 0, total, ⟨total, wholeRead, rfl⟩, .nothing, someTime, rfl, rfl, parse_display total⟩
  · obtain ⟨total, taken, duration, wholeRead, reductionRead, remaining, rfl⟩ :=
      (subtractText_eq_ok_iff isEmpty).1 done
    obtain ⟨sum, someTime⟩ := totalMinutes_of_subtract remaining
    exact ⟨_, _, duration, ⟨total, wholeRead, rfl⟩, .time ⟨taken, reductionRead, rfl⟩, by omega,
      by omega, rfl, parse_display duration⟩

/-- Something is left of texts where something is left of what they stand for. -/
theorem exists_subtractText_eq_ok_iff {reduction whole : String} :
    (∃ left, subtractText reduction whole = .ok left) ↔
      (reduction = "" ∧ ∃ total, Lasts whole total ∧ 0 < total) ∨
      ∃ total taken, parse whole = .ok total ∧ parse reduction = .ok taken ∧
        ¬ Mixes total taken ∧ ¬ Exhausts total taken := by
  constructor
  · rintro ⟨left, done⟩
    by_cases isEmpty : reduction = ""
    · subst isEmpty
      obtain ⟨total, wholeRead, someTime, -⟩ := subtractText_empty_eq_ok_iff.1 done
      exact .inl ⟨rfl, _, ⟨total, wholeRead, rfl⟩, someTime⟩
    · obtain ⟨total, taken, duration, wholeRead, reductionRead, remaining, -⟩ :=
        (subtractText_eq_ok_iff isEmpty).1 done
      exact .inr ⟨total, taken, wholeRead, reductionRead,
        exists_subtract_eq_ok_iff.1 ⟨duration, remaining⟩⟩
  · rintro (⟨rfl, _, ⟨total, wholeRead, rfl⟩, someTime⟩ |
      ⟨total, taken, wholeRead, reductionRead, plain⟩)
    · exact ⟨_, subtractText_empty_eq_ok_iff.2 ⟨total, wholeRead, someTime, rfl⟩⟩
    · obtain ⟨duration, remaining⟩ := exists_subtract_eq_ok_iff.2 plain
      have filled : reduction ≠ "" := by
        rintro rfl
        cases reductionRead
      exact ⟨_, (subtractText_eq_ok_iff filled).2
        ⟨total, taken, duration, wholeRead, reductionRead, remaining, rfl⟩⟩

/-- Every subtraction of texts agrees with the minutes. -/
theorem subtractsInMinutes (reduction whole : String) : SubtractsInMinutes reduction whole where
  difference _ done := difference_of_subtractText done
  unreduced := by
    rintro rfl left done
    obtain ⟨total, wholeRead, -, rfl⟩ := subtractText_empty_eq_ok_iff.1 done
    exact shortens_display wholeRead
  exhausted := by
    intro total taken wholeLasts takes atMost
    cases done : subtractText reduction whole with
    | error error => exact ⟨error, rfl⟩
    | ok left =>
        obtain ⟨sameTotal, sameTaken, -, wholeRead, reductionRead, less, -⟩ :=
          difference_of_subtractText done
        have equalTotals := wholeLasts.unique wholeRead
        have equalTaken := takes.unique reductionRead
        omega
  wholeUnread := subtractText_of_unread
  reductionUnread := by
    rintro _ ⟨total, wholeRead, -⟩ filled unread
    rw [subtractText, wholeRead, String.isEmpty_eq_false_iff.2 filled, unread_iff.1 unread, refusal,
      if_neg filled]
    rfl
  answered := exists_subtractText_eq_ok_iff

/-! ## Division -/

/-- What comes of a division, with the one condition under which it does. -/
inductive DividesInMinutes (divisor window : String) : Except DurationError Nat → Prop where
  | noWindow (blank : Text.isBlankText window = true) : DividesInMinutes divisor window (.ok 0)
  | noDivisor (filled : Text.isBlankText window = false)
      (blank : Text.isBlankText divisor = true) :
      DividesInMinutes divisor window (.error .unspecifiedDivisor)
  | counted {period length count : Nat} (divisorLasts : Lasts divisor period)
      (windowLasts : Lasts window length) (someTime : 0 < period)
      (fits : count * period ≤ length) (noMore : length < (count + 1) * period) :
      DividesInMinutes divisor window (.ok count)
  | zero {length : Nat} (divisorLasts : Lasts divisor 0) (windowLasts : Lasts window length) :
      DividesInMinutes divisor window (.error .zeroDivisor)
  | divisorUnread (filled : Text.isBlankText window = false)
      (divisorFilled : Text.isBlankText divisor = false) (unread : Unread divisor) :
      DividesInMinutes divisor window (.error (.malformed divisor))
  | windowUnread {period : Nat} (filled : Text.isBlankText window = false)
      (divisorLasts : Lasts divisor period) (unread : Unread window) :
      DividesInMinutes divisor window (.error (.malformed window))

/-- A text that holds more than blanks is refused for what it holds. -/
theorem refusal_of_filled {text : String} (filled : Text.isBlankText text = false) :
    refusal text = .malformed text := by
  apply if_neg
  rintro rfl
  cases filled

/-- A text that reads as a duration is not blank: it has the letter of a unit. -/
theorem Lasts.filled {text : String} {minutes : Nat} (lasts : Lasts text minutes) :
    Text.isBlankText text = false := by
  obtain ⟨duration, parsed, -⟩ := lasts
  obtain ⟨hours, minutes, spells, -⟩ := parse_eq_ok_iff.1 parsed
  rw [Text.isBlankText, List.all_eq_false, spells.whole]
  cases hours with
  | some digits => exact ⟨'H', by simp [spellUnit], by decide⟩
  | none =>
      cases minutes with
      | some digits => exact ⟨'M', by simp [spellUnit], by decide⟩
      | none => exact absurd (String.toList_inj.1 spells.whole) spells.filled

/-- Where neither text is blank, both are read, the divisor first. -/
theorem divideText_of_filled {divisor window : String}
    (filled : Text.isBlankText window = false) (divisorFilled : Text.isBlankText divisor = false) :
    divideText divisor window = (do
      let period ← parse divisor
      let length ← parse window
      period.cyclesWithin length) := by
  rw [divideText, if_neg (ne_true_of_eq_false filled), if_neg (ne_true_of_eq_false divisorFilled)]

/-- What comes of a division is what the division answers. -/
theorem DividesInMinutes.divideText_eq {divisor window : String}
    {result : Except DurationError Nat} (divides : DividesInMinutes divisor window result) :
    divideText divisor window = result := by
  cases divides with
  | noWindow blank =>
      rw [divideText, if_pos blank]
      rfl
  | noDivisor filled blank =>
      rw [divideText, if_neg (ne_true_of_eq_false filled), if_pos blank]
      rfl
  | counted divisorLasts windowLasts someTime fits noMore =>
      rw [divideText_of_filled windowLasts.filled divisorLasts.filled]
      obtain ⟨period, divisorRead, rfl⟩ := divisorLasts
      obtain ⟨length, windowRead, rfl⟩ := windowLasts
      rw [divisorRead, windowRead]
      exact cyclesWithin_eq_ok_iff.2 ⟨someTime, fits, noMore⟩
  | zero divisorLasts windowLasts =>
      rw [divideText_of_filled windowLasts.filled divisorLasts.filled]
      obtain ⟨period, divisorRead, noTime⟩ := divisorLasts
      obtain ⟨length, windowRead, rfl⟩ := windowLasts
      rw [divisorRead, windowRead]
      exact if_pos noTime
  | divisorUnread filled divisorFilled unread =>
      rw [divideText_of_filled filled divisorFilled, unread_iff.1 unread,
        refusal_of_filled divisorFilled]
      rfl
  | windowUnread filled divisorLasts unread =>
      rw [divideText_of_filled filled divisorLasts.filled]
      obtain ⟨period, divisorRead, rfl⟩ := divisorLasts
      rw [divisorRead, unread_iff.1 unread, refusal_of_filled filled]
      rfl

/-- Every division comes to something. -/
theorem exists_dividesInMinutes (divisor window : String) :
    ∃ result, DividesInMinutes divisor window result := by
  cases filled : Text.isBlankText window with
  | true => exact ⟨_, .noWindow filled⟩
  | false =>
      cases divisorFilled : Text.isBlankText divisor with
      | true => exact ⟨_, .noDivisor filled divisorFilled⟩
      | false =>
          obtain ⟨period, divisorLasts⟩ | divisorUnread := lasts_or_unread divisor
          · obtain ⟨length, windowLasts⟩ | windowUnread := lasts_or_unread window
            · obtain rfl | someTime := Nat.eq_zero_or_pos period
              · exact ⟨_, .zero divisorLasts windowLasts⟩
              · have fits := Nat.div_mul_le_self length period
                have noMore := Nat.lt_mul_of_div_lt (Nat.lt_succ_self (length / period)) someTime
                exact ⟨_, .counted divisorLasts windowLasts someTime fits noMore⟩
            · exact ⟨_, .windowUnread filled divisorLasts windowUnread⟩
          · exact ⟨_, .divisorUnread filled divisorFilled divisorUnread⟩

/-- A division answers what comes of it, and nothing else. -/
theorem divideText_eq_iff {divisor window : String} {result : Except DurationError Nat} :
    divideText divisor window = result ↔ DividesInMinutes divisor window result := by
  constructor
  · obtain ⟨other, divides⟩ := exists_dividesInMinutes divisor window
    rw [divides.divideText_eq]
    rintro rfl
    exact divides
  · exact DividesInMinutes.divideText_eq

/-- Calculating with texts is calculating with their minutes. What is left of a text is the
difference, written as a duration that reads back; the quotient of two texts is that of their
minutes, rounded down. All else is an error, and each error has its condition. -/
theorem calculates_in_minutes (reduction whole divisor window : String) :
    SubtractsInMinutes reduction whole ∧
    ∀ result, divideText divisor window = result ↔ DividesInMinutes divisor window result :=
  ⟨subtractsInMinutes reduction whole, fun _ => divideText_eq_iff⟩

/-- An empty reduction takes nothing away, a blank one is no duration. -/
example : subtractText "" "002H" = .ok "2H" ∧
    subtractText " " "002H" = .error (.malformed " ") := by
  decide

end BusinessProcess.Duration
