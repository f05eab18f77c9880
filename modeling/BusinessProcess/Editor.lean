import BusinessProcess.Configuration.Basic
import BusinessProcess.Duration.Arithmetic
import BusinessProcess.Lint.RequiredFields
import BusinessProcess.TimeLimit.Sweep
import BusinessProcess.TimerEvent

/-!
# Editors

An editor brings the parts together for someone who works on a process: it holds the rules at
their configured levels, the way messages are shown and the service task that time limits
escalate to. It says of each error where it comes from.
-/

namespace BusinessProcess

/-- Why an editor cannot do what it is asked for. -/
inductive EditorError where
  /-- A file could not be read as text. -/
  | unreadable
  | configuration (error : ConfigurationError)
  | timer (error : TimerError)
  | duration (error : DurationError)
deriving DecidableEq, Repr

/-- The wording of an editor error. -/
def EditorError.message : EditorError → String
  | .unreadable => "I/O error"
  | .configuration error => "Configuration error: " ++ error.message
  | .timer error => "Timer error: " ++ error.message
  | .duration error => "Invalid duration: " ++ error.message

/-- The rules, the translator and the delegate that a process is worked on with. -/
structure Editor where
  registry : Lint.Registry
  translate : Lint.Translator
  /-- The service task that time limits escalate to. -/
  delegate : String

/-- The outcome of checking a process. -/
structure Validation where
  /-- No finding fails the process. -/
  passed : Bool
  /-- The findings, element by element. -/
  findings : List Lint.Finding

/-- The outcome that a report amounts to. -/
def Validation.ofReport (report : Lint.Report) : Validation :=
  ⟨report.passed, report.findings⟩

namespace Editor

/-- The editor with the recommended rules. -/
def standard : Editor where
  registry := Lint.Registry.recommended
  translate := id
  delegate := TimeLimit.defaultDelegate

/-- The editor with the given configuration. -/
def ofConfiguration (configuration : Configuration) : Except EditorError Editor :=
  match Overrides.apply configuration.rules Lint.Registry.recommended with
  | (registry, .ok ()) =>
      .ok { registry := registry, translate := id, delegate := configuration.delegate }
  | (_, .error error) => .error (.configuration error)

/-- Checks a process against the rules. -/
def validate (editor : Editor) (graph : Graph) : Validation :=
  .ofReport (Lint.run editor.registry editor.translate graph)

/-- Checks the required fields of the user tasks of a process, in the untranslated wording. -/
def checkRequiredFields (_ : Editor) (graph : Graph) : Validation :=
  .ofReport (Lint.RequiredFields.check id graph)

/-- The outcome of a change of timers, and the process that it leaves behind. -/
def changeTimers {α : Type} (change : TimerChange α) (graph : Graph) :
    Except EditorError α × Graph :=
  match change graph with
  | .ok value changed => (.ok value, changed)
  | .error error left => (.error (.timer error), left)

/-- Sets or clears a time limit. -/
def setTimeLimit (editor : Editor) (graph : Graph) (activity : ElementId) (limit : TimeLimit)
    (value : Option String) : Except EditorError TimeLimit.Outcome × Graph :=
  changeTimers (limit.change editor.delegate activity value) graph

/-- Removes an activity with its time limits. -/
def removeActivity (_ : Editor) (graph : Graph) (activity : ElementId) :
    Except EditorError (Option Node) × Graph :=
  changeTimers (TimeLimit.removeActivity activity) graph

/-- Removes all elements of time limits and counts them. -/
def sweepTimeLimits (_ : Editor) (graph : Graph) : Except EditorError Nat × Graph :=
  changeTimers TimeLimit.sweep graph

/-- Sets or clears a field of a timer event. -/
def configureTimerEvent (_ : Editor) (graph : Graph) (event : ElementId)
    (field : TimerEvent.Field) (value : Option String) :
    Except EditorError (Option TimerExpression) × Graph :=
  match TimerEvent.configure graph event field value with
  | .ok (expression, changed) => (.ok expression, changed)
  | .error error => (.error (.timer error), graph)

/-- What is left of the written duration `whole` after taking `reduction` away. -/
def computeDuration (_ : Editor) (reduction whole : String) : Except EditorError String :=
  (Duration.subtractText reduction whole).mapError .duration

/-- How often the written period `divisor` fits into `window`. -/
def computeCycles (_ : Editor) (divisor window : String) : Except EditorError Nat :=
  (Duration.divideText divisor window).mapError .duration

end Editor

end BusinessProcess
