import BusinessProcess.Duration.Arithmetic
import BusinessProcess.TimeLimit.Basic

/-!
# From entered limits to timers

The timer of a limit follows from the value entered for it and from the limit that it is
computed from, which is kept on the activity. A deadline runs for its own length, a first warning
for what is left of the deadline, and the repeated warnings as often as their period fits into
the time after the first warning.
-/

namespace BusinessProcess.TimeLimit

/-- The value kept for a limit, if it is not blank. -/
def stored? (attributes : Attributes) (limit : TimeLimit) : Option String :=
  attributes.filled? limit.attributeKey

/-- The value kept for a limit that another one is computed from. -/
def required (attributes : Attributes) (limit : TimeLimit) : Except Obstacle String :=
  match stored? attributes limit with
  | some raw => .ok raw
  | none => .error (.missingPrerequisite limit)

/-- The body of a timer that runs for a length of time. -/
def lengthBody (duration : String) : String :=
  "PT" ++ duration

/-- The body of a timer that repeats. -/
def repetitionBody (count : Nat) (period : String) : String :=
  "R" ++ Text.Decimal.write count ++ "/PT" ++ period

/-- The timer of a limit with the value `raw`, given the attributes of its activity. -/
def derive (attributes : Attributes) (limit : TimeLimit) (raw : String) :
    Except Obstacle TimerExpression :=
  match limit with
  | .deadline =>
      match Duration.parse raw with
      | .error error => .error (.invalidDuration error)
      | .ok duration =>
          if duration.totalMinutes = 0 then .error (.invalidDuration .nonPositive)
          else .ok ⟨.duration, lengthBody raw⟩
  | .firstWarning =>
      match required attributes .deadline with
      | .error obstacle => .error obstacle
      | .ok allowed =>
          match Duration.subtractText raw allowed with
          | .error error => .error (.invalidDuration error)
          | .ok left => .ok ⟨.duration, lengthBody left⟩
  | .loopWarning =>
      match required attributes .firstWarning with
      | .error obstacle => .error obstacle
      | .ok lead =>
          match Duration.divideText raw lead with
          | .error error => .error (.invalidDuration error)
          | .ok count => .ok ⟨.cycle, repetitionBody count raw⟩

end BusinessProcess.TimeLimit
