import Mathlib.Algebra.Order.Floor.Div
import BusinessProcess.Proofs.Duration.Minutes

/-!
# Differences of durations

What is left of a duration is exact on all amounts: in minutes it is the difference of the totals,
it names the hours of the whole, and it names minutes unless there are none on either side to
name. A difference fails for two reasons only. Hours cannot be taken from a duration without
hours, and some time has to be left, where borrowing for the minutes has to leave an hour, not
only a minute.

The computation goes by signed words of 64 bits and turns what is left back into amounts.
`subtractInWords` keeps to these words and stops where one of them does not hold what is computed.
It never stops.
-/

namespace BusinessProcess.Duration

/-! ## The computation in words -/

/-- The number, if a signed word of 64 bits holds it. -/
def signedWord? (number : Int) : Option Int :=
  if -2 ^ 63 ≤ number ∧ number < 2 ^ 63 then some number else none

/-- The number, if an unsigned word of 32 bits holds it. -/
def unsignedWord? (number : Int) : Option Int :=
  if 0 ≤ number ∧ number < 2 ^ 32 then some number else none

/-- The duration of the given hours and minutes as `ofRemaining` has it, in words. There is no
result when a word does not hold a number on the way, or when an amount is none. -/
def ofRemainingInWords (hours : Int) (minutes : Option Int) :
    Option (Except DurationError Duration) := do
  let hoursInMinutes ← signedWord? (hours * 60)
  let total ← signedWord? (hoursInMinutes + minutes.getD 0)
  if hours < 0 ∨ minutes.any (· < 0) ∨ total ≤ 0 then
    some (.error .nonPositive)
  else do
    let hoursLeft ← amount? hours.toNat
    match minutes with
    | none => some (ofUnits (some hoursLeft) none)
    | some minutes =>
        let minutesLeft ← amount? minutes.toNat
        some (ofUnits (some hoursLeft) (some minutesLeft))

/-- What is left of a duration with hours and minutes when hours are borrowed for the minutes, in
words. -/
def borrowInWords (hours minutes taken : Int) : Option (Except DurationError Duration) := do
  let lack ← signedWord? (taken - minutes)
  let roundedUp ← signedWord? (lack + 59)
  let borrowed ← signedWord? (roundedUp / 60)
  let hoursLeft ← signedWord? (hours - borrowed)
  if hoursLeft ≤ 0 then
    some (.error .nonPositive)
  else do
    let borrowedMinutes ← signedWord? (borrowed * 60)
    let minutesHeld ← signedWord? (minutes + borrowedMinutes)
    let minutesLeft ← signedWord? (minutesHeld - taken)
    ofRemainingInWords hoursLeft (some minutesLeft)

/-- What is left of a duration as `subtract` has it, in words. -/
def subtractInWords (whole reduction : Duration) : Option (Except DurationError Duration) :=
  match whole.hours with
  | none =>
      -- Without hours there is one step, which takes minutes from more minutes.
      some (whole.subtract reduction)
  | some wholeHours => do
      let hours ← signedWord? (wholeHours.toNat - amount reduction.hours)
      match whole.minutes, reduction.minutes with
      | minutes, none => ofRemainingInWords hours (minutes.map fun held => (held.toNat : Int))
      | none, some taken => borrowInWords hours 0 taken.toNat
      | some held, some taken =>
          if taken ≤ held then do
            let minutes ← unsignedWord? (held.toNat - taken.toNat)
            ofRemainingInWords hours (some minutes)
          else
            borrowInWords hours held.toNat taken.toNat

/-- A unit amounts to less than a word of 32 bits holds. -/
theorem amount_lt (unit : Option UInt32) : amount unit < 2 ^ 32 :=
  (unit.getD 0).toNat_lt

/-- A number below the bounds is what the word holds. -/
theorem signedWord?_of_small {number : Int} (above : -2 ^ 40 < number) (below : number < 2 ^ 40) :
    signedWord? number = some number :=
  if_pos ⟨by omega, by omega⟩

/-- A number that is small enough is an amount. -/
theorem exists_amount {number : Int} (below : number < 2 ^ 32) :
    ∃ word, amount? number.toNat = some word :=
  Option.isSome_iff_exists.1 (amount?_isSome_iff.2 (by rw [UInt32.size]; omega))

/-- Hours and minutes that are small enough are turned into a duration in words. -/
theorem ofRemainingInWords_eq {hours : Int} {minutes : Option Int} (above : -2 ^ 33 < hours)
    (below : hours < 2 ^ 32) (minutesAbove : 0 ≤ minutes.getD 0)
    (minutesBelow : minutes.getD 0 < 2 ^ 32) :
    ofRemainingInWords hours minutes = some (ofRemaining hours minutes) := by
  simp only [ofRemainingInWords, ofRemaining, Option.bind_eq_bind]
  rw [signedWord?_of_small (by omega) (by omega), Option.bind_some,
    signedWord?_of_small (by omega) (by omega), Option.bind_some, apply_ite some]
  refine if_congr Iff.rfl rfl ?_
  obtain ⟨hoursWord, hoursFit⟩ := exists_amount below
  rw [hoursFit, Option.bind_some]
  cases minutes with
  | none => rfl
  | some minutes =>
      obtain ⟨minutesWord, minutesFit⟩ := exists_amount minutesBelow
      rw [Option.getD_some] at minutesFit
      simp only [minutesFit, Option.bind_some]

/-- Hours are borrowed for the minutes in words. -/
theorem borrowInWords_eq {hours : Int} {held taken : Nat} (above : -2 ^ 32 < hours)
    (below : hours < 2 ^ 32) (lacking : held ≤ taken) (small : taken < 2 ^ 32) :
    borrowInWords hours held taken =
      some (if hours - borrowedHours (taken - held) ≤ 0 then .error .nonPositive
        else ofRemaining (hours - borrowedHours (taken - held))
          (some (borrowedHours (taken - held) * 60 - (taken - held : Nat)))) := by
  have borrowed : ((taken : Int) - held + 59) / 60 = borrowedHours (taken - held) := by
    rw [borrowedHours]
    omega
  have bounds : (borrowedHours (taken - held) : Int) * 60 < taken - held + 60 ∧
      taken - held ≤ (borrowedHours (taken - held) : Int) * 60 := by
    rw [← borrowed]
    omega
  simp only [borrowInWords, Option.bind_eq_bind]
  rw [signedWord?_of_small (by omega) (by omega), Option.bind_some,
    signedWord?_of_small (by omega) (by omega), Option.bind_some, borrowed,
    signedWord?_of_small (by omega) (by omega), Option.bind_some,
    signedWord?_of_small (by omega) (by omega), Option.bind_some, apply_ite some]
  refine if_congr Iff.rfl rfl ?_
  rw [signedWord?_of_small (by omega) (by omega), Option.bind_some,
    signedWord?_of_small (by omega) (by omega), Option.bind_some,
    signedWord?_of_small (by omega) (by omega), Option.bind_some]
  have minutesLeft : (held : Int) + borrowedHours (taken - held) * 60 - taken =
      borrowedHours (taken - held) * 60 - (taken - held : Nat) := by
    omega
  rw [minutesLeft]
  exact ofRemainingInWords_eq (by omega) (by omega) (by rw [Option.getD_some]; omega)
    (by rw [Option.getD_some]; omega)

/-! ## The shape of what is left -/

/-- The reduction names more minutes than the whole does, so that hours have to make up for
them. -/
def Borrows (whole reduction : Duration) : Prop :=
  ∃ taken, reduction.minutes = some taken ∧ ∀ held, whole.minutes = some held → held < taken

/-- No time would be left: too few minutes where there are no hours, no whole hour after borrowing
for the minutes, or, with enough minutes, too few hours or nothing at all. -/
inductive Exhausts (whole reduction : Duration) : Prop where
  | minutes (wholeHours : whole.hours = none) (hours : reduction.hours = none)
      (atMost : amount whole.minutes ≤ amount reduction.minutes)
  | borrowing (wholeHours : whole.hours.isSome = true) (borrows : Borrows whole reduction)
      (nothing : (amount whole.hours : Int) - amount reduction.hours -
        ((amount reduction.minutes - amount whole.minutes) ⌈/⌉ 60 : Nat) ≤ 0)
  | hours (wholeHours : whole.hours.isSome = true) (enough : ¬ Borrows whole reduction)
      (nothing : amount whole.hours < amount reduction.hours ∨
        whole.totalMinutes = reduction.totalMinutes)

/-- Without hours, time runs out where the minutes do. -/
theorem exhausts_iff_of_hours_eq_none {whole reduction : Duration}
    (wholeHours : whole.hours = none) : Exhausts whole reduction ↔
      reduction.hours = none ∧ amount whole.minutes ≤ amount reduction.minutes := by
  constructor
  · rintro (⟨_, hours, atMost⟩ | ⟨someHours, _, _⟩ | ⟨someHours, _, _⟩)
    · exact ⟨hours, atMost⟩
    · simp [wholeHours] at someHours
    · simp [wholeHours] at someHours
  · rintro ⟨hours, atMost⟩
    exact .minutes wholeHours hours atMost

/-- Where hours are borrowed, time runs out with the last whole hour. -/
theorem exhausts_iff_of_borrows {whole reduction : Duration}
    (someHours : whole.hours.isSome = true) (borrows : Borrows whole reduction) :
    Exhausts whole reduction ↔ (amount whole.hours : Int) - amount reduction.hours -
      ((amount reduction.minutes - amount whole.minutes) ⌈/⌉ 60 : Nat) ≤ 0 := by
  constructor
  · rintro (⟨noHours, _, _⟩ | ⟨_, _, nothing⟩ | ⟨_, enough, _⟩)
    · simp [noHours] at someHours
    · exact nothing
    · exact absurd borrows enough
  · exact .borrowing someHours borrows

/-- With enough minutes, time runs out where the hours do or where nothing is left. -/
theorem exhausts_iff_of_not_borrows {whole reduction : Duration}
    (someHours : whole.hours.isSome = true) (enough : ¬ Borrows whole reduction) :
    Exhausts whole reduction ↔ amount whole.hours < amount reduction.hours ∨
      whole.totalMinutes = reduction.totalMinutes := by
  constructor
  · rintro (⟨noHours, _, _⟩ | ⟨_, borrows, _⟩ | ⟨_, _, nothing⟩)
    · simp [noHours] at someHours
    · exact absurd borrows enough
    · exact nothing
  · exact .hours someHours enough

/-- `left` is what is left of `whole` after taking `reduction` away: the difference, which is some
time, in the units of the whole and the minutes it had to be broken into. -/
structure IsDifference (whole reduction left : Duration) : Prop where
  total : (left.totalMinutes : Int) = whole.totalMinutes - reduction.totalMinutes
  positive : 0 < left.totalMinutes
  hours : left.hours.isSome = true ↔ whole.hours.isSome = true
  minutes : left.minutes.isSome = true ↔
    whole.minutes.isSome = true ∨ (whole.hours.isSome = true ∧ reduction.minutes.isSome = true)
  belowHour : Borrows whole reduction → amount left.minutes < 60

/-- Minutes are borrowed for as they lack, in whole hours. -/
theorem borrowedHours_eq_ceilDiv (lack : Nat) : borrowedHours lack = lack ⌈/⌉ 60 :=
  (Nat.ceilDiv_eq_add_pred_div lack 60).symm

/-- A reduction that borrows takes at least the minutes there are. -/
theorem Borrows.le {whole reduction : Duration} (borrows : Borrows whole reduction) :
    amount whole.minutes ≤ amount reduction.minutes := by
  obtain ⟨taken, named, more⟩ := borrows
  cases minutes : whole.minutes with
  | none => exact Nat.zero_le _
  | some held =>
      rw [named]
      exact Nat.le_of_lt (UInt32.lt_iff_toNat_lt.1 (more held minutes))

/-- A reduction that does not borrow takes at most the minutes there are. -/
theorem le_of_not_borrows {whole reduction : Duration} (enough : ¬ Borrows whole reduction) :
    amount reduction.minutes ≤ amount whole.minutes := by
  cases named : reduction.minutes with
  | none => exact Nat.zero_le _
  | some taken =>
      by_contra less
      refine enough ⟨taken, named, fun held minutes => ?_⟩
      rw [minutes, Nat.not_le] at less
      exact UInt32.lt_iff_toNat_lt.2 less

/-- With enough minutes, hours are taken from hours and minutes from minutes. -/
theorem subtract_of_not_borrows {whole reduction : Duration} {hours : UInt32}
    (wholeHours : whole.hours = some hours) (enough : ¬ Borrows whole reduction) :
    whole.subtract reduction = ofRemaining (hours.toNat - amount reduction.hours)
      (whole.minutes.map fun held => (held.toNat : Int) - amount reduction.minutes) := by
  rw [subtract, wholeHours]
  cases named : reduction.minutes with
  | none => simp [amount]
  | some taken =>
      cases minutes : whole.minutes with
      | none => exact absurd ⟨taken, named, fun held here => by simp [minutes] at here⟩ enough
      | some held =>
          have reaches : taken ≤ held := by
            rw [UInt32.le_iff_toNat_le]
            simpa [amount, named, minutes] using le_of_not_borrows enough
          simp [reaches, amount]

/-- Without enough minutes, hours are borrowed for them, and one has to be left. -/
theorem subtract_of_borrows {whole reduction : Duration} {hours : UInt32}
    (wholeHours : whole.hours = some hours) (borrows : Borrows whole reduction) :
    whole.subtract reduction =
      (let lack := amount reduction.minutes - amount whole.minutes
      let left : Int := hours.toNat - amount reduction.hours - borrowedHours lack
      if left ≤ 0 then .error .nonPositive
      else ofRemaining left (some (borrowedHours lack * 60 - lack))) := by
  obtain ⟨taken, named, more⟩ := borrows
  rw [subtract, wholeHours, named]
  have short : (whole.minutes.any fun minutes => decide (taken ≤ minutes)) = false := by
    cases minutes : whole.minutes with
    | none => rfl
    | some held => simpa using more held minutes
  simp [short, amount]

/-! ## What comes of a subtraction -/

/-- Hours are to be taken from a duration without hours. -/
def Mixes (whole reduction : Duration) : Prop :=
  whole.hours = none ∧ reduction.hours.isSome = true

/-- Hours may be taken from hours. -/
theorem not_mixes {whole : Duration} {hours : UInt32} (wholeHours : whole.hours = some hours)
    (reduction : Duration) : ¬ Mixes whole reduction := by
  simp [Mixes, wholeHours]

/-- What comes of a subtraction, with the one condition under which it does. -/
inductive Outcome (whole reduction : Duration) : Except DurationError Duration → Prop where
  | mixed (mixes : Mixes whole reduction) (inTime : ¬ Exhausts whole reduction) :
      Outcome whole reduction (.error .mixedUnits)
  | exhausted (plain : ¬ Mixes whole reduction) (exhausts : Exhausts whole reduction) :
      Outcome whole reduction (.error .nonPositive)
  | left (left : Duration) (plain : ¬ Mixes whole reduction) (inTime : ¬ Exhausts whole reduction)
      (difference : IsDifference whole reduction left) : Outcome whole reduction (.ok left)

/-- Small hours and minutes make up a duration unless no time is left. -/
theorem ofRemaining_cases (hours : Int) (minutes : Option Int) (below : hours < 2 ^ 32)
    (minutesAbove : 0 ≤ minutes.getD 0) (minutesBelow : minutes.getD 0 < 2 ^ 32) :
    ((hours < 0 ∨ hours * 60 + minutes.getD 0 = 0) ∧
      ofRemaining hours minutes = .error .nonPositive) ∨
    ((0 ≤ hours ∧ 0 < hours * 60 + minutes.getD 0) ∧
      ∃ left, ofRemaining hours minutes = .ok left ∧ left.hours.isSome = true ∧
        left.minutes.isSome = minutes.isSome ∧ (amount left.minutes : Int) = minutes.getD 0) := by
  have named : minutes.any (· < 0) = false := by
    cases minutes with
    | none => rfl
    | some minutes => simpa using minutesAbove
  simp only [ofRemaining, named, Bool.false_eq_true, false_or]
  by_cases out : hours < 0 ∨ hours * 60 + minutes.getD 0 ≤ 0
  · refine .inl ⟨?_, if_pos out⟩
    omega
  · refine .inr ⟨by omega, ?_⟩
    rw [if_neg out]
    obtain ⟨hoursWord, hoursFit⟩ := exists_amount below
    rw [hoursFit]
    cases minutes with
    | none => exact ⟨_, rfl, rfl, rfl, rfl⟩
    | some minutes =>
        rw [Option.getD_some] at minutesAbove minutesBelow
        obtain ⟨minutesWord, minutesFit⟩ := exists_amount minutesBelow
        simp only [minutesFit]
        refine ⟨_, rfl, rfl, rfl, ?_⟩
        have exact := toNat_of_amount? minutesFit
        simp only [amount, Option.getD_some]
        omega

/-- Without hours on either side, minutes are taken from minutes. -/
theorem outcome_of_minutes {whole reduction : Duration} (wholeHours : whole.hours = none)
    (hours : reduction.hours = none) : Outcome whole reduction (whole.subtract reduction) := by
  have plain : ¬ Mixes whole reduction := by simp [Mixes, hours]
  obtain ⟨held, minutes⟩ : ∃ held, whole.minutes = some held := by
    simpa [wholeHours, Option.isSome_iff_exists] using whole.named
  obtain ⟨taken, named⟩ : ∃ taken, reduction.minutes = some taken := by
    simpa [hours, Option.isSome_iff_exists] using reduction.named
  have result : whole.subtract reduction =
      if taken < held then ofUnits none (some (held - taken)) else .error .nonPositive := by
    simp [subtract, wholeHours, hours, minutesLeft, minutes, named]
  by_cases less : taken < held
  · have lessNat := UInt32.lt_iff_toNat_lt.1 less
    rw [if_pos less] at result
    obtain ⟨total, positive⟩ := totalMinutes_of_subtract result
    rw [result]
    refine .left _ plain ?_ ⟨by omega, positive, by simp [wholeHours], by simp [minutes], ?_⟩
    · rw [exhausts_iff_of_hours_eq_none wholeHours, minutes, named, amount_some, amount_some]
      omega
    · rintro ⟨other, sameTaken, more⟩
      cases named.symm.trans sameTaken
      have fewer := UInt32.lt_iff_toNat_lt.1 (more held minutes)
      omega
  · rw [if_neg less] at result
    rw [result]
    refine .exhausted plain (.minutes wholeHours hours ?_)
    simpa [minutes, named, amount, UInt32.lt_iff_toNat_lt] using less

/-- With enough minutes, the outcome is that of the hours and the minutes. -/
theorem outcome_of_not_borrows {whole reduction : Duration} {hours : UInt32}
    (wholeHours : whole.hours = some hours) (enough : ¬ Borrows whole reduction) :
    Outcome whole reduction (whole.subtract reduction) := by
  have plain := not_mixes wholeHours reduction
  have someHours : whole.hours.isSome = true := by simp [wholeHours]
  have hoursAmount : amount whole.hours = hours.toNat := by simp [wholeHours, amount]
  have hoursSmall := amount_lt whole.hours
  have taken := le_of_not_borrows enough
  have minutesSmall := amount_lt whole.minutes
  have minutesLeft : (whole.minutes.map fun held =>
      (held.toNat : Int) - amount reduction.minutes).getD 0 =
      amount whole.minutes - amount reduction.minutes := by
    cases minutes : whole.minutes with
    | none =>
        rw [minutes] at taken
        simp only [Option.map_none, Option.getD_none, amount, UInt32.toNat_zero] at taken ⊢
        omega
    | some held => simp [amount]
  have wholeTotal : whole.totalMinutes = amount whole.hours * 60 + amount whole.minutes := rfl
  have reductionTotal : reduction.totalMinutes =
    amount reduction.hours * 60 + amount reduction.minutes := rfl
  have result := subtract_of_not_borrows wholeHours enough
  obtain ⟨out, failed⟩ | ⟨inTime, left, done, hoursNamed, minutesNamed, minutesKept⟩ :=
    ofRemaining_cases (hours.toNat - amount reduction.hours) (whole.minutes.map fun held =>
      (held.toNat : Int) - amount reduction.minutes) (by omega) (by omega) (by omega)
  · rw [result, failed]
    exact .exhausted plain (.hours someHours enough (by omega))
  · rw [done] at result
    obtain ⟨total, positive⟩ := totalMinutes_of_subtract result
    rw [result]
    refine .left left plain ?_ ⟨by omega, positive, by simp [hoursNamed, someHours], ?_, ?_⟩
    · rw [exhausts_iff_of_not_borrows someHours enough]
      omega
    · rw [minutesNamed, Option.isSome_map]
      refine ⟨.inl, ?_⟩
      rintro (named | ⟨-, named⟩)
      · exact named
      · by_contra unnamed
        obtain ⟨taken, named⟩ := Option.isSome_iff_exists.1 named
        exact enough ⟨taken, named, fun held minutes => by simp [minutes] at unnamed⟩
    · exact fun borrows => absurd borrows enough

/-- Where hours are borrowed, the outcome is that of the hours left. -/
theorem outcome_of_borrows {whole reduction : Duration} {hours : UInt32}
    (wholeHours : whole.hours = some hours) (borrows : Borrows whole reduction) :
    Outcome whole reduction (whole.subtract reduction) := by
  have plain := not_mixes wholeHours reduction
  have someHours : whole.hours.isSome = true := by simp [wholeHours]
  have hoursAmount : amount whole.hours = hours.toNat := by simp [wholeHours, amount]
  have hoursSmall := amount_lt whole.hours
  have takenSmall := amount_lt reduction.minutes
  have result := subtract_of_borrows wholeHours borrows
  have nothingIff := borrowedHours_eq_ceilDiv (amount reduction.minutes - amount whole.minutes)
  generalize lacking : amount reduction.minutes - amount whole.minutes = lack at result nothingIff
  have bounds : lack ≤ borrowedHours lack * 60 ∧ borrowedHours lack * 60 < lack + 60 := by
    rw [borrowedHours]
    omega
  dsimp only at result
  split at result
  next nothing =>
    rw [result]
    exact .exhausted plain (.borrowing someHours borrows (by rw [lacking]; omega))
  next hourLeft =>
    obtain ⟨out, failed⟩ | ⟨inTime, left, done, hoursNamed, minutesNamed, minutesKept⟩ :=
      ofRemaining_cases (hours.toNat - amount reduction.hours - borrowedHours lack)
        (some (borrowedHours lack * 60 - lack)) (by omega)
        (by rw [Option.getD_some]; omega) (by rw [Option.getD_some]; omega)
    · rw [Option.getD_some] at out
      omega
    · rw [done] at result
      obtain ⟨total, positive⟩ := totalMinutes_of_subtract result
      rw [result]
      rw [Option.getD_some] at minutesKept
      refine .left left plain ?_ ⟨by omega, positive, by simp [hoursNamed, someHours], ?_, ?_⟩
      · rw [exhausts_iff_of_borrows someHours borrows, lacking]
        omega
      · obtain ⟨taken, named, -⟩ := borrows
        simp [minutesNamed, someHours, named]
      · intro _
        omega

/-- Every subtraction has an outcome. -/
theorem outcome_subtract (whole reduction : Duration) :
    Outcome whole reduction (whole.subtract reduction) := by
  cases wholeHours : whole.hours with
  | none =>
      cases hours : reduction.hours with
      | none => exact outcome_of_minutes wholeHours hours
      | some taken =>
          have mixes : Mixes whole reduction := ⟨wholeHours, by simp [hours]⟩
          rw [subtract_of_hours_eq_none wholeHours mixes.2]
          refine .mixed mixes ?_
          simp [exhausts_iff_of_hours_eq_none wholeHours, hours]
  | some held =>
      by_cases borrows : Borrows whole reduction
      · exact outcome_of_borrows wholeHours borrows
      · exact outcome_of_not_borrows wholeHours borrows

/-- The words hold every number of a subtraction. -/
theorem subtractInWords_eq (whole reduction : Duration) :
    subtractInWords whole reduction = some (whole.subtract reduction) := by
  cases wholeHours : whole.hours with
  | none => simp only [subtractInWords, wholeHours]
  | some hours =>
      have hoursSmall := hours.toNat_lt
      have takenHours := amount_lt reduction.hours
      have takenSmall := amount_lt reduction.minutes
      have heldSmall := amount_lt whole.minutes
      simp only [subtractInWords, wholeHours, Option.bind_eq_bind]
      rw [signedWord?_of_small (by omega) (by omega), Option.bind_some]
      by_cases borrows : Borrows whole reduction
      · have atMost := borrows.le
        rw [subtract_of_borrows wholeHours borrows,
          ← borrowInWords_eq (by omega) (by omega) atMost takenSmall]
        obtain ⟨taken, named, more⟩ := borrows
        cases minutes : whole.minutes with
        | none => simp [named, amount]
        | some held => simp [named, amount, more held minutes]
      · have atMost := le_of_not_borrows borrows
        rw [subtract_of_not_borrows wholeHours borrows]
        cases named : reduction.minutes with
        | none =>
            have kept : (whole.minutes.map fun held => (held.toNat : Int)).getD 0 =
                amount whole.minutes := by
              cases whole.minutes <;> rfl
            simp only [amount_none, Int.natCast_zero, Int.sub_zero]
            exact ofRemainingInWords_eq (by omega) (by omega) (by omega) (by omega)
        | some taken =>
            cases minutes : whole.minutes with
            | none => exact absurd ⟨taken, named, fun held here => by simp [minutes] at here⟩ borrows
            | some held =>
                simp only [named, minutes, amount_some] at atMost heldSmall ⊢
                rw [if_pos (UInt32.le_iff_toNat_le.2 atMost), unsignedWord?,
                  if_pos ⟨by omega, by omega⟩, Option.bind_some]
                exact ofRemainingInWords_eq (by omega) (by omega)
                  (by rw [Option.getD_some]; omega) (by rw [Option.getD_some]; omega)

/-- Subtraction is exact on all amounts. What is left is the difference in the units of the whole;
hours taken from none and time running out are the only errors, each exactly where it has to be;
and no step leaves the words it is computed in. -/
theorem subtract_exact (whole reduction : Duration) :
    (∀ left, whole.subtract reduction = .ok left → IsDifference whole reduction left) ∧
    (whole.subtract reduction = .error .mixedUnits ↔
      whole.hours = none ∧ reduction.hours.isSome = true) ∧
    (whole.subtract reduction = .error .nonPositive ↔ Exhausts whole reduction) ∧
    (∀ error, whole.subtract reduction = .error error →
      error = .mixedUnits ∨ error = .nonPositive) ∧
    subtractInWords whole reduction = some (whole.subtract reduction) := by
  have inWords := subtractInWords_eq whole reduction
  have outcome := outcome_subtract whole reduction
  generalize whole.subtract reduction = result at inWords outcome
  rw [← and_assoc, ← and_assoc, ← and_assoc]
  refine ⟨?_, inWords⟩
  cases outcome with
  | mixed mixes inTime =>
      refine ⟨⟨⟨nofun, iff_of_true rfl mixes⟩, iff_of_false nofun inTime⟩, ?_⟩
      rintro error ⟨⟩
      exact .inl rfl
  | exhausted plain exhausts =>
      refine ⟨⟨⟨nofun, iff_of_false nofun plain⟩, iff_of_true rfl exhausts⟩, ?_⟩
      rintro error ⟨⟩
      exact .inr rfl
  | left left plain inTime difference =>
      refine ⟨⟨⟨?_, iff_of_false nofun plain⟩, iff_of_false nofun inTime⟩, nofun⟩
      rintro other ⟨⟩
      exact difference

/-- Half an hour would be left, but no whole hour. -/
example : (⟨some 2, none, .inl rfl⟩ : Duration).subtract ⟨none, some 90, .inr rfl⟩ =
    .error .nonPositive := by
  decide

end BusinessProcess.Duration
