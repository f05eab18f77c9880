import BusinessProcess.Duration.Arithmetic
import BusinessProcess.Proofs.Duration.Reading

/-!
# Durations in minutes

Arithmetic on durations works unit by unit, borrows hours for minutes and leaves units out. In
minutes it is plain subtraction and division: what is left of a duration is the difference of the
two totals, and a period fits into a window as often as the totals divide. What is written for a
duration reads as the same duration, so the same holds of the texts.
-/

namespace BusinessProcess.Duration

/-! ## Differences and quotients of totals -/

/-- The hours and minutes that remain make up the total asked for, which is some time. -/
theorem totalMinutes_of_ofRemaining {hours : Int} {minutes : Option Int} {left : Duration}
    (done : ofRemaining hours minutes = .ok left) :
    (left.totalMinutes : Int) = hours * 60 + minutes.getD 0 ∧ 0 < left.totalMinutes := by
  unfold ofRemaining at done
  split at done
  next => cases done
  next valid =>
    simp only [not_or, Int.not_lt, Int.not_le] at valid
    obtain ⟨hoursLeft, minutesLeft, positive⟩ := valid
    split at done
    next => cases done
    next hoursWord fits =>
      have exact := toNat_of_amount? fits
      cases done
      simp only [totalMinutes, amount, Option.getD_some, Option.getD_none, exact,
        UInt32.toNat_zero] at positive ⊢
      omega
    next hoursWord minutes fits =>
      have exact := toNat_of_amount? fits
      simp only [Option.any_some, decide_eq_true_eq, Int.not_lt] at minutesLeft
      split at done
      next minutesWord fitsToo =>
        have exactToo := toNat_of_amount? fitsToo
        cases done
        simp only [totalMinutes, amount, Option.getD_some] at positive ⊢
        rw [exact, exactToo]
        omega
      next => cases done

/-- Without hours, the minutes that are left are the difference, which is some time. -/
theorem totalMinutes_of_minutesLeft {whole left : Duration} {reduction : UInt32}
    (withoutHours : whole.hours = none)
    (done : whole.minutesLeft (some reduction) = .ok left) :
    left.totalMinutes + reduction.toNat = whole.totalMinutes ∧ 0 < left.totalMinutes := by
  unfold minutesLeft at done
  split at done
  next => cases done
  next nothing => cases nothing
  next minutes taken wholeMinutes sameTaken =>
    cases sameTaken
    split at done
    next smaller =>
      cases done
      have exact := UInt32.toNat_sub_of_le _ _ (UInt32.le_of_lt smaller)
      have smallerNat := UInt32.lt_iff_toNat_lt.1 smaller
      simp only [totalMinutes, amount, withoutHours, wholeMinutes, Option.getD_some,
        Option.getD_none, exact, UInt32.toNat_zero]
      omega
    next => cases done

/-- What is left of a duration is the difference of the totals, which is some time. -/
theorem totalMinutes_of_subtract {whole reduction left : Duration}
    (done : whole.subtract reduction = .ok left) :
    left.totalMinutes + reduction.totalMinutes = whole.totalMinutes ∧ 0 < left.totalMinutes := by
  have reductionTotal : reduction.totalMinutes =
    amount reduction.hours * 60 + amount reduction.minutes := rfl
  have wholeTotal : whole.totalMinutes = amount whole.hours * 60 + amount whole.minutes := rfl
  unfold subtract at done
  split at done
  next withoutHours =>
    split at done
    next => cases done
    next noHours =>
      have hoursAbsent : reduction.hours = none := by simpa using noHours
      have minutesNamed := reduction.named
      rw [hoursAbsent] at minutesNamed
      cases minutes : reduction.minutes with
      | none => simp [minutes] at minutesNamed
      | some taken =>
          rw [minutes] at done reductionTotal
          obtain ⟨total, positive⟩ := totalMinutes_of_minutesLeft withoutHours done
          refine ⟨?_, positive⟩
          rw [reductionTotal, hoursAbsent]
          simpa [amount] using total
  next wholeHours hours =>
    have hoursAmount : amount whole.hours = wholeHours.toNat := by simp [hours, amount]
    split at done
    next minutesAbsent =>
      obtain ⟨total, positive⟩ := totalMinutes_of_ofRemaining done
      have minutesAmount : (whole.minutes.map fun minutes => (minutes.toNat : Int)).getD 0 =
          amount whole.minutes := by
        cases whole.minutes <;> rfl
      have nothingTaken : amount reduction.minutes = 0 := by rw [minutesAbsent]; rfl
      omega
    next taken minutesTaken =>
      have takenAmount : amount reduction.minutes = taken.toNat := by
        rw [minutesTaken]
        rfl
      split at done
      next =>
        obtain ⟨total, positive⟩ := totalMinutes_of_ofRemaining done
        rw [Option.getD_some] at total
        omega
      next short =>
        -- The minutes of the whole do not reach, so that the lack is a true difference.
        have lacking : amount whole.minutes ≤ taken.toNat := by
          cases minutes : whole.minutes with
          | none => simp [amount]
          | some held =>
              simp only [minutes, Option.any_some, decide_eq_true_eq, UInt32.not_le] at short
              exact Nat.le_of_lt (UInt32.lt_iff_toNat_lt.1 short)
        dsimp only at done
        split at done
        next => cases done
        next =>
          obtain ⟨total, positive⟩ := totalMinutes_of_ofRemaining done
          rw [Option.getD_some] at total
          omega

/-! ## Texts of durations -/

/-- The text reads as a duration of this many minutes. -/
def Lasts (text : String) (minutes : Nat) : Prop :=
  ∃ duration, parse text = .ok duration ∧ duration.totalMinutes = minutes

/-- A text lasts one number of minutes at most. -/
theorem Lasts.unique {text : String} {first second : Nat} (lasts : Lasts text first)
    (other : Lasts text second) : first = second := by
  obtain ⟨duration, parsed, rfl⟩ := lasts
  obtain ⟨same, parsedToo, rfl⟩ := other
  rw [Except.ok.inj (parsed.symm.trans parsedToo)]

/-- What is written for a duration lasts as long as the duration. -/
theorem lasts_display (duration : Duration) : Lasts duration.display duration.totalMinutes :=
  ⟨duration, parse_display duration, rfl⟩

/-- A reduction that is not empty is read and taken away. -/
theorem subtractText_eq_ok_iff {reduction whole left : String} (filled : reduction ≠ "") :
    subtractText reduction whole = .ok left ↔ ∃ total taken duration, parse whole = .ok total ∧
      parse reduction = .ok taken ∧ total.subtract taken = .ok duration ∧
      left = duration.display := by
  rw [subtractText]
  simp only [bind_eq_ok_iff, String.isEmpty_eq_false_iff.2 filled, if_neg Bool.false_ne_true]
  constructor
  · rintro ⟨total, wholeRead, taken, reductionRead, duration, remaining, ⟨⟩⟩
    exact ⟨total, taken, duration, wholeRead, reductionRead, remaining, rfl⟩
  · rintro ⟨total, taken, duration, wholeRead, reductionRead, remaining, rfl⟩
    exact ⟨total, wholeRead, taken, reductionRead, duration, remaining, rfl⟩

/-- The period of some minutes fits as often as its multiples stay within the window. -/
theorem cyclesWithin_eq_ok_iff {divisor window : Duration} {count : Nat} :
    divisor.cyclesWithin window = .ok count ↔ 0 < divisor.totalMinutes ∧
      count * divisor.totalMinutes ≤ window.totalMinutes ∧
      window.totalMinutes < (count + 1) * divisor.totalMinutes := by
  rw [cyclesWithin]
  by_cases noTime : divisor.totalMinutes = 0
  · rw [if_pos noTime, noTime]
    constructor
    · intro counted
      cases counted
    · rintro ⟨someTime, -⟩
      exact absurd someTime (Nat.lt_irrefl 0)
  · have someTime := Nat.pos_of_ne_zero noTime
    rw [if_neg noTime]
    constructor
    · rintro ⟨⟩
      exact ⟨someTime, Nat.div_mul_le_self _ _,
        Nat.lt_mul_of_div_lt (Nat.lt_succ_self _) someTime⟩
    · rintro ⟨-, fits, noMore⟩
      rw [Nat.div_eq_of_lt_le fits noMore]

/-- What is left of a written duration lasts for the difference, which is some time. -/
theorem lasts_of_subtractText {reduction whole left : String}
    (filled : reduction.isEmpty = false) (done : subtractText reduction whole = .ok left) :
    ∃ total taken, Lasts whole total ∧ Lasts reduction taken ∧ taken < total ∧
      Lasts left (total - taken) := by
  obtain ⟨wholeRead, taken, leftRead, wholeParsed, takenParsed, remaining, rfl⟩ :=
    (subtractText_eq_ok_iff (String.isEmpty_eq_false_iff.1 filled)).1 done
  obtain ⟨total, positive⟩ := totalMinutes_of_subtract remaining
  have difference : leftRead.totalMinutes = wholeRead.totalMinutes - taken.totalMinutes := by omega
  refine ⟨_, _, ⟨wholeRead, wholeParsed, rfl⟩, ⟨taken, takenParsed, rfl⟩, by omega, ?_⟩
  rw [← difference]
  exact lasts_display leftRead

/-- A period fits into a window that is not blank as often as its multiples stay within it. -/
theorem lasts_of_divideText {divisor window : String} {count : Nat}
    (filled : Text.isBlankText window = false) (done : divideText divisor window = .ok count) :
    ∃ period length, Lasts divisor period ∧ Lasts window length ∧ 0 < period ∧
      count * period ≤ length ∧ length < (count + 1) * period := by
  simp only [divideText, filled, Bool.false_eq_true, if_false] at done
  split at done
  next => cases done
  next =>
    simp only [bind_eq_ok_iff] at done
    obtain ⟨period, periodParsed, length, lengthParsed, counted⟩ := done
    obtain ⟨positive, fits, noMore⟩ := cyclesWithin_eq_ok_iff.1 counted
    exact ⟨_, _, ⟨period, periodParsed, rfl⟩, ⟨length, lengthParsed, rfl⟩, positive, fits, noMore⟩

end BusinessProcess.Duration
