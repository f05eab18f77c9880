import BusinessProcess.Duration.Basic
import BusinessProcess.Text.Decimal
import BusinessProcess.Text.Split

/-!
# Durations as texts

A duration is written as its hours followed by `H` and its minutes followed by `M`, such as
`1H30M`; a unit that is not named is left out. Reading takes any number of leading zeros and
nothing else besides.
-/

namespace BusinessProcess.Duration

/-- Reads the digits of one unit of `text`. -/
def readAmount (text : String) (digits : List Char) : Except DurationError UInt32 :=
  if Text.Decimal.isNumeral digits then
    match amount? (Text.Decimal.value digits) with
    | some amount => .ok amount
    | none => .error (.malformed text)
  else .error (.malformed text)

/-- Reads what follows the hours of `text`: nothing, or minutes. -/
def readMinutes (text : String) : List Char → Except DurationError (Option UInt32)
  | [] => .ok none
  | rest =>
      match Text.beforeFinal? 'M' rest with
      | some digits => (readAmount text digits).map some
      | none => .error (.malformed text)

/-- Reads a duration. The hours are what comes before the first `H`. -/
def parse (text : String) : Except DurationError Duration := do
  if text.isEmpty then .error .empty
  match Text.cutAt? 'H' text.toList with
  | some (digits, rest) =>
      let hours ← readAmount text digits
      let minutes ← readMinutes text rest
      ofUnits (some hours) minutes
  | none =>
      let minutes ← readMinutes text text.toList
      ofUnits none minutes

/-- One unit as written: its amount and its letter, or nothing if it is not named. -/
def writeUnit (unit : Option UInt32) (letter : String) : String :=
  match unit with
  | some amount => Text.Decimal.write amount.toNat ++ letter
  | none => ""

/-- The written form of a duration. -/
def display (duration : Duration) : String :=
  writeUnit duration.hours "H" ++ writeUnit duration.minutes "M"

end BusinessProcess.Duration
