import BusinessProcess.Text.Decimal

/-!
# Dates and times

A moment is a date, a time of day, or both, and with both it may be fixed to an offset. Seconds
may be left out. Days are checked against the calendar.
-/

namespace BusinessProcess.Toml

/-- A day of the calendar. -/
structure Date where
  year : Nat
  month : Nat
  day : Nat
deriving DecidableEq, Repr

/-- A time of day. -/
structure Clock where
  hour : Nat
  minute : Nat
  second : Option Nat
  /-- The digits of a fraction of a second, at most nine of them; none if there is no
  fraction. -/
  fraction : List Char
deriving DecidableEq, Repr

/-- How far a clock is ahead of universal time. -/
inductive Offset where
  | universal
  | shifted (behind : Bool) (hours minutes : Nat)
deriving DecidableEq, Repr

/-- A date, a time of day, or both. -/
inductive Moment where
  | dateOnly (date : Date)
  | timeOnly (clock : Clock)
  | floating (date : Date) (clock : Clock)
  | zoned (date : Date) (clock : Clock) (offset : Offset)
deriving DecidableEq, Repr

/-- Whether a year has a 29th of February. -/
def isLeapYear (year : Nat) : Bool :=
  (year % 4 == 0 && year % 100 != 0) || year % 400 == 0

/-- The number of days of a month; there are no days outside the twelve months. -/
def daysOfMonth (year month : Nat) : Nat :=
  match month with
  | 2 => if isLeapYear year then 29 else 28
  | 4 | 6 | 9 | 11 => 30
  | 1 | 3 | 5 | 7 | 8 | 10 | 12 => 31
  | _ => 0

/-- Whether the calendar has the day. -/
def Date.isValid (date : Date) : Bool :=
  1 ≤ date.day && date.day ≤ daysOfMonth date.year date.month

/-- Whether a clock shows the time; a minute may have a leap second. -/
def Clock.isValid (clock : Clock) : Bool :=
  clock.hour ≤ 23 && clock.minute ≤ 59 && clock.second.all (· ≤ 60)

namespace Moment

/-- Reads exactly `width` digits. -/
def number? (width : Nat) (characters : List Char) : Option (Nat × List Char) :=
  let digits := characters.take width
  if digits.length = width && digits.all Char.isDigit then
    some (Text.Decimal.value digits, characters.drop width)
  else none

/-- Reads a character that has to be there. -/
def expect? (expected : Char) : List Char → Option (List Char)
  | [] => none
  | head :: rest => if head = expected then some rest else none

/-- Reads `YYYY-MM-DD`. -/
def date? (characters : List Char) : Option (Date × List Char) := do
  let (year, rest) ← number? 4 characters
  let (month, rest) ← number? 2 (← expect? '-' rest)
  let (day, rest) ← number? 2 (← expect? '-' rest)
  let date : Date := ⟨year, month, day⟩
  if date.isValid then some (date, rest) else none

/-- Reads what may follow the minutes: seconds, and a fraction of a second. -/
def seconds? : List Char → Option (Option Nat × List Char × List Char)
  | ':' :: rest => do
      let (second, rest) ← number? 2 rest
      match rest with
      | '.' :: digits =>
          let fraction := digits.takeWhile Char.isDigit
          if fraction.isEmpty then none
          else some (some second, fraction.take 9, digits.dropWhile Char.isDigit)
      | _ => some (some second, [], rest)
  | rest => some (none, [], rest)

/-- Reads `hh:mm`, `hh:mm:ss` or `hh:mm:ss.f`. -/
def clock? (characters : List Char) : Option (Clock × List Char) := do
  let (hour, rest) ← number? 2 characters
  let (minute, rest) ← number? 2 (← expect? ':' rest)
  let (second, fraction, rest) ← seconds? rest
  let clock : Clock := ⟨hour, minute, second, fraction⟩
  if clock.isValid then some (clock, rest) else none

/-- Reads a whole offset: `Z`, or a sign with `hh:mm`. -/
def offset? : List Char → Option Offset
  | ['Z'] | ['z'] => some .universal
  | sign :: rest => do
      let (hours, rest) ← number? 2 rest
      let (minutes, rest) ← number? 2 (← expect? ':' rest)
      if rest.isEmpty && hours ≤ 23 && minutes ≤ 59 && (sign = '+' || sign = '-') then
        some (.shifted (sign = '-') hours minutes)
      else none
  | [] => none

/-- Whether a character may stand between a date and a time. -/
def isSeparator (character : Char) : Bool :=
  character = 'T' || character = 't' || character = ' '

/-- Reads a whole moment. -/
def parse? (characters : List Char) : Option Moment :=
  match date? characters with
  | some (date, []) => some (.dateOnly date)
  | some (date, separator :: rest) => do
      if !isSeparator separator then none
      let (clock, rest) ← clock? rest
      if rest.isEmpty then some (.floating date clock)
      else some (.zoned date clock (← offset? rest))
  | none =>
      match clock? characters with
      | some (clock, []) => some (.timeOnly clock)
      | _ => none

/-- A number in at least `width` digits. -/
def padded (width number : Nat) : String :=
  let digits := Text.Decimal.digits number
  String.ofList (List.replicate (width - digits.length) '0' ++ digits)

/-- The written form of a date. -/
def displayDate (date : Date) : String :=
  padded 4 date.year ++ "-" ++ padded 2 date.month ++ "-" ++ padded 2 date.day

/-- The digits of a fraction without its final zeros, one of which stays if there is nothing
else. -/
def significantDigits (fraction : List Char) : List Char :=
  match (fraction.reverse.dropWhile (· = '0')).reverse with
  | [] => ['0']
  | digits => digits

/-- The written form of a fraction of a second, if there is one. -/
def displayFraction (fraction : List Char) : String :=
  if fraction.isEmpty then "" else "." ++ String.ofList (significantDigits fraction)

/-- The written form of a time of day. -/
def displayClock (clock : Clock) : String :=
  let second := match clock.second with
    | some second => ":" ++ padded 2 second
    | none => ""
  padded 2 clock.hour ++ ":" ++ padded 2 clock.minute ++ second ++ displayFraction clock.fraction

/-- The written form of an offset. No offset is written as being ahead. -/
def displayOffset : Offset → String
  | .universal => "Z"
  | .shifted behind hours minutes =>
      (if behind && (hours != 0 || minutes != 0) then "-" else "+")
        ++ padded 2 hours ++ ":" ++ padded 2 minutes

/-- The written form of a moment. -/
def display : Moment → String
  | .dateOnly date => displayDate date
  | .timeOnly clock => displayClock clock
  | .floating date clock => displayDate date ++ "T" ++ displayClock clock
  | .zoned date clock offset =>
      displayDate date ++ "T" ++ displayClock clock ++ displayOffset offset

end Moment

end BusinessProcess.Toml
