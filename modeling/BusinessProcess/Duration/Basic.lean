/-!
# Durations in hours and minutes

A duration names hours, minutes or both. A unit that is not named is unspecified, which is not
the same as zero: the arithmetic on durations depends on which units its operands name. Amounts
are unsigned words of 32 bits and totals are natural numbers, so no total overflows.
-/

namespace BusinessProcess

/-- Why a duration cannot be read or computed. -/
inductive DurationError where
  /-- Neither unit is named. -/
  | empty
  /-- The text is not of the form `<H>H<M>M`. -/
  | malformed (text : String)
  /-- Hours are to be taken from a duration that names none. -/
  | mixedUnits
  /-- No time would be left. -/
  | nonPositive
  /-- The period to count is blank. -/
  | unspecifiedDivisor
  /-- The period to count takes no time. -/
  | zeroDivisor
deriving DecidableEq, Repr

/-- The wording of a duration error. -/
def DurationError.message : DurationError → String
  | .empty => "duration has neither an hour nor a minute unit"
  | .malformed text => "malformed duration `" ++ text ++ "`, expected `<H>H<M>M`"
  | .mixedUnits => "cannot subtract an hour amount from a duration without hours"
  | .nonPositive => "result is not a positive duration"
  | .unspecifiedDivisor => "divisor has neither an hour nor a minute unit"
  | .zeroDivisor => "divisor resolves to a zero duration"

/-- Hours and minutes, at least one of which is named. -/
structure Duration where
  hours : Option UInt32
  minutes : Option UInt32
  /-- A unit is named. -/
  named : hours.isSome ∨ minutes.isSome
deriving DecidableEq

namespace Duration

/-- The amount of a unit; an unspecified unit counts as zero. -/
def amount (unit : Option UInt32) : Nat :=
  (unit.getD 0).toNat

@[simp] theorem amount_none : amount none = 0 := rfl

@[simp] theorem amount_some (word : UInt32) : amount (some word) = word.toNat := rfl

/-- The duration of the given units. -/
def ofUnits (hours minutes : Option UInt32) : Except DurationError Duration :=
  if named : hours.isSome ∨ minutes.isSome then .ok ⟨hours, minutes, named⟩ else .error .empty

/-- The whole duration in minutes. -/
def totalMinutes (duration : Duration) : Nat :=
  amount duration.hours * 60 + amount duration.minutes

/-- A natural number as an amount, if it is small enough for one. -/
def amount? (number : Nat) : Option UInt32 :=
  if number < UInt32.size then some (UInt32.ofNat number) else none

theorem toNat_of_amount? {number : Nat} {word : UInt32} (fits : amount? number = some word) :
    word.toNat = number := by
  unfold amount? at fits
  split at fits
  next small =>
    cases fits
    exact UInt32.toNat_ofNat_of_lt' small
  next => cases fits

/-- Every number below the size of a word is an amount, and no other. -/
theorem amount?_isSome_iff {number : Nat} :
    (amount? number).isSome = true ↔ number < UInt32.size := by
  unfold amount?
  split <;> simp [*]

end Duration

end BusinessProcess
