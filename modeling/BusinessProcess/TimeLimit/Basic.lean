import BusinessProcess.Duration.Basic
import BusinessProcess.Graph.Basic

/-!
# Time limits of activities

An activity may have a deadline, a first warning some time before it, and warnings repeated from
then on. Each limit is entered as a duration and kept in an attribute of the activity. It takes
effect through three elements beside the activity: a boundary event with a timer, a service task
that escalates, and the flow from one to the other. Their ids are the id of the activity with an
ending.

The limits form a chain: the first warning is counted back from the deadline, and the repeated
warnings start at the first one.
-/

namespace BusinessProcess

/-- The three time limits of an activity. -/
inductive TimeLimit where
  /-- The time allowed for the activity. -/
  | deadline
  /-- The time before the deadline at which the first warning is given. -/
  | firstWarning
  /-- The time between the warnings after the first one. -/
  | loopWarning
deriving DecidableEq, Repr

namespace TimeLimit

/-- All time limits, each before those that depend on it. -/
def all : List TimeLimit :=
  [.deadline, .firstWarning, .loopWarning]

/-- What the limit is called. -/
def name : TimeLimit → String
  | .deadline => "deadline"
  | .firstWarning => "first warning"
  | .loopWarning => "loop warning"

/-- The attribute of the activity that keeps the limit as entered. -/
def attributeKey : TimeLimit → String
  | .deadline => "timeLimit:timeDuration"
  | .firstWarning => "timeLimit:firstWarnDuration"
  | .loopWarning => "timeLimit:loopWarnDuration"

/-- What the id of the boundary event adds to the id of the activity. -/
def boundaryEnding : TimeLimit → String
  | .deadline => "_overtime"
  | .firstWarning => "_timer"
  | .loopWarning => "_timer_loop"

/-- What the id of the service task adds to the id of the boundary event. -/
def serviceEnding : String :=
  "_service"

/-- What the id of the flow adds to the id of the boundary event. -/
def serviceFlowEnding : String :=
  "_service_flow"

/-- The limit that this one is computed from. -/
def prerequisite? : TimeLimit → Option TimeLimit
  | .deadline => none
  | .firstWarning => some .deadline
  | .loopWarning => some .firstWarning

/-- The limit that is computed from this one. -/
def dependent? : TimeLimit → Option TimeLimit
  | .deadline => some .firstWarning
  | .firstWarning => some .loopWarning
  | .loopWarning => none

/-- The limits that follow this one in the chain. -/
def dependents : TimeLimit → List TimeLimit
  | .deadline => [.firstWarning, .loopWarning]
  | .firstWarning => [.loopWarning]
  | .loopWarning => []

/-- The id of the boundary event of a limit of `activity`. -/
def boundaryId (limit : TimeLimit) (activity : ElementId) : ElementId :=
  activity.withEnding limit.boundaryEnding

/-- The id of the service task that belongs to the boundary event with the id `boundary`. -/
def serviceId (boundary : ElementId) : ElementId :=
  boundary.withEnding serviceEnding

/-- The id of the flow that leaves the boundary event with the id `boundary`. -/
def serviceFlowId (boundary : ElementId) : ElementId :=
  boundary.withEnding serviceFlowEnding

/-- The service task called unless another is configured. -/
def defaultDelegate : String :=
  "$\x7bexecutionTimerDelegate\x7d"

/-- A limit depends on the one that it is computed from. -/
theorem dependent?_eq_some_iff {first second : TimeLimit} :
    first.dependent? = some second ↔ second.prerequisite? = some first := by
  cases first <;> cases second <;> decide

/-- The limits that follow are the next one and those that follow it. -/
theorem dependents_eq (limit : TimeLimit) :
    limit.dependents =
      match limit.dependent? with
      | some next => next :: next.dependents
      | none => [] := by
  cases limit <;> rfl

/-- A time limit as it takes effect: what was entered, and the timer that follows from it. -/
structure Setting where
  limit : TimeLimit
  /-- The value as entered, without blanks around it. -/
  raw : String
  expression : TimerExpression
deriving DecidableEq

/-- Why a time limit has no effect yet. -/
inductive Obstacle where
  /-- The limit is computed from another one that is not set. -/
  | missingPrerequisite (limit : TimeLimit)
  /-- The value is no usable duration. -/
  | invalidDuration (error : DurationError)
deriving DecidableEq, Repr

/-- The wording of an obstacle. -/
def Obstacle.message : Obstacle → String
  | .missingPrerequisite limit => "the " ++ limit.name ++ " must be set first"
  | .invalidDuration error => error.message

/-- The effect of entering a time limit. -/
inductive Outcome where
  /-- The limit is set and its timer installed. -/
  | installed (setting : Setting)
  /-- The limit is cleared and its timer removed. -/
  | removed
  /-- Nothing was changed. -/
  | skipped (obstacle : Obstacle)
deriving DecidableEq

end TimeLimit

/-- Why a timer cannot be changed as asked. -/
inductive TimerError where
  /-- No node has the id. -/
  | unknownElement (id : ElementId)
  /-- The node carries no time limits. -/
  | notAnActivity (id : ElementId)
  /-- The node is no event that waits for a time. -/
  | notATimerEvent (id : ElementId)
  /-- The node has no container. -/
  | detached (id : ElementId)
  /-- The text is not of the form `R<n>/<period>`. -/
  | malformedCycle (text : String)
  /-- The process refused a change. -/
  | graph (error : GraphError)
deriving DecidableEq, Repr

/-- The wording of a timer error. -/
def TimerError.message : TimerError → String
  | .unknownElement id => "unknown element `" ++ id.text ++ "`"
  | .notAnActivity id => "`" ++ id.text ++ "` is not an activity"
  | .notATimerEvent id => "`" ++ id.text ++ "` is not a start or intermediate catch event"
  | .detached id => "`" ++ id.text ++ "` is not part of a process"
  | .malformedCycle text => "malformed cycle `" ++ text ++ "`, expected `R<n>/<period>`"
  | .graph error => error.message

end BusinessProcess
