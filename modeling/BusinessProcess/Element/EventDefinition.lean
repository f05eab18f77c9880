/-!
# Event definitions

An event says what it waits for or throws by its definitions. A timer definition carries an
expression: how long, when, or how often.
-/

namespace BusinessProcess

/-- What the body of a timer expression denotes. -/
inductive TimerForm where
  /-- A length of time, such as `PT1H30M`. -/
  | duration
  /-- A fixed point in time. -/
  | date
  /-- A repetition, such as `R4/PT15M`. -/
  | cycle
deriving DecidableEq, Repr

/-- The name of a form on a timer definition. -/
def TimerForm.name : TimerForm → String
  | .duration => "timeDuration"
  | .date => "timeDate"
  | .cycle => "timeCycle"

/-- What a timer waits for. -/
structure TimerExpression where
  form : TimerForm
  body : String
deriving DecidableEq, Repr

/-- The form and the body, joined by an equals sign. -/
def TimerExpression.display (expression : TimerExpression) : String :=
  expression.form.name ++ "=" ++ expression.body

/-- What an event waits for or throws. An event without definitions is blank. -/
inductive EventDefinition where
  | timer (expression : TimerExpression)
  | message
  | signal
  | error
  | escalation
  | conditional
  | terminate
deriving DecidableEq, Repr

end BusinessProcess
