import BusinessProcess.Duration.Text
import BusinessProcess.Text.Blank

/-!
# Arithmetic on durations

Two quantities are derived from durations: what is left of one when another is taken away, and
how often a period fits into a window. What is left keeps the units of the duration it is left
of, and no time left is an error.
-/

namespace BusinessProcess.Duration

/-- The duration of the given hours and, where they are named, minutes, if that is some time and
both amounts are amounts. -/
def ofRemaining (hours : Int) (minutes : Option Int) : Except DurationError Duration :=
  if hours < 0 ∨ minutes.any (· < 0) ∨ hours * 60 + minutes.getD 0 ≤ 0 then
    .error .nonPositive
  else
    match amount? hours.toNat, minutes with
    | none, _ => .error .nonPositive
    | some hours, none => ofUnits (some hours) none
    | some hours, some minutes =>
        match amount? minutes.toNat with
        | some minutes => ofUnits (some hours) (some minutes)
        | none => .error .nonPositive

/-- What is left of `minutes` of a duration without hours after taking `reduction` away. -/
def minutesLeft (whole : Duration) (reduction : Option UInt32) : Except DurationError Duration :=
  match whole.minutes, reduction with
  | none, _ => .error .empty
  | some _, none => .ok whole
  | some minutes, some reduction =>
      if reduction < minutes then ofUnits none (some (minutes - reduction))
      else .error .nonPositive

/-- The whole hours that make up for a lack of minutes. -/
def borrowedHours (lack : Nat) : Nat :=
  (lack + 59) / 60

/-- What is left of a duration after taking `reduction` away, in the units of the duration. When
the minutes do not suffice, as many hours as they lack are turned into minutes, and an hour has
to be left. -/
def subtract (whole reduction : Duration) : Except DurationError Duration :=
  match whole.hours with
  | none =>
      if reduction.hours.isSome then .error .mixedUnits
      else whole.minutesLeft reduction.minutes
  | some wholeHours =>
      let hours : Int := wholeHours.toNat - amount reduction.hours
      match reduction.minutes with
      | none => ofRemaining hours (whole.minutes.map fun minutes => (minutes.toNat : Int))
      | some reductionMinutes =>
          if whole.minutes.any fun minutes => reductionMinutes ≤ minutes then
            ofRemaining hours (some (amount whole.minutes - reductionMinutes.toNat))
          else
            let lack := reductionMinutes.toNat - amount whole.minutes
            let borrowed := borrowedHours lack
            if hours - borrowed ≤ 0 then .error .nonPositive
            else
              ofRemaining (hours - borrowed) (some (borrowed * 60 - lack))

/-- How often the period `divisor` fits into `window`. -/
def cyclesWithin (divisor window : Duration) : Except DurationError Nat :=
  if divisor.totalMinutes = 0 then .error .zeroDivisor
  else .ok (window.totalMinutes / divisor.totalMinutes)

/-- The written form of what is left of the written duration `whole` after taking the written
duration `reduction` away. An empty reduction takes nothing away. -/
def subtractText (reduction whole : String) : Except DurationError String := do
  let whole ← parse whole
  if reduction.isEmpty then
    let _ ← ofRemaining (amount whole.hours)
      (whole.minutes.map fun minutes => (minutes.toNat : Int))
    return whole.display
  else
    let reduction ← parse reduction
    let left ← whole.subtract reduction
    return left.display

/-- How often the written period `divisor` fits into the written `window`. Nothing fits into a
blank window. -/
def divideText (divisor window : String) : Except DurationError Nat := do
  if Text.isBlankText window then return 0
  if Text.isBlankText divisor then .error .unspecifiedDivisor
  let divisor ← parse divisor
  let window ← parse window
  divisor.cyclesWithin window

/-- An hour amount is never taken from a duration without hours. -/
theorem subtract_of_hours_eq_none {whole reduction : Duration} (without : whole.hours = none)
    (taken : reduction.hours.isSome = true) : whole.subtract reduction = .error .mixedUnits := by
  simp [subtract, without, taken]

end BusinessProcess.Duration
