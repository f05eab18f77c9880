/-!
# Levels of rules

A rule is switched off or reports with a severity. The two advisory severities differ in their
spelling only; both are kept because configurations use both.
-/

namespace BusinessProcess.Lint

/-- How much weight a finding has. -/
inductive Severity where
  /-- The process is at fault and does not pass. -/
  | error
  /-- An advice. -/
  | warn
  /-- An advice, in its longer spelling. -/
  | warning
deriving DecidableEq, Repr

/-- Whether a rule runs, and the severity of its findings. -/
inductive Level where
  | off
  | on (severity : Severity)
deriving DecidableEq, Repr

/-- Why the rules cannot be configured as asked. -/
inductive LevelError where
  /-- No registered rule has the name. -/
  | unknownRule (name : String)
  /-- The text names no level. -/
  | invalidLevel (text : String)
deriving DecidableEq, Repr

/-- The wording of a level error. -/
def LevelError.message : LevelError → String
  | .unknownRule name => "unknown rule `" ++ name ++ "`"
  | .invalidLevel text =>
      "invalid rule level `" ++ text ++ "`, expected one of off, error, warn, warning"

namespace Severity

/-- Whether a finding of this severity fails a process. -/
def isError : Severity → Bool
  | .error => true
  | _ => false

/-- Whether a finding of this severity is an advice. -/
def isWarning : Severity → Bool
  | .error => false
  | _ => true

/-- The word for a severity. -/
def text : Severity → String
  | .error => "error"
  | .warn => "warn"
  | .warning => "warning"

/-- Reads the word for a severity. -/
def parse (text : String) : Except LevelError Severity :=
  if text = "error" then .ok .error
  else if text = "warn" then .ok .warn
  else if text = "warning" then .ok .warning
  else .error (.invalidLevel text)

/-- A word is read as a severity exactly if it is the word for it. -/
theorem parse_eq_ok_iff {word : String} {severity : Severity} :
    parse word = .ok severity ↔ word = severity.text := by
  constructor
  · intro read
    unfold parse at read
    split at read
    next same => cases read; exact same
    next =>
      split at read
      next same => cases read; exact same
      next =>
        split at read
        next same => cases read; exact same
        next => cases read
  · rintro rfl
    cases severity <;> rfl

end Severity

namespace Level

/-- The severity of a rule that runs. -/
def severity? : Level → Option Severity
  | .off => none
  | .on severity => some severity

/-- The word for a level. -/
def text : Level → String
  | .off => "off"
  | .on severity => severity.text

/-- Reads the word for a level. -/
def parse (text : String) : Except LevelError Level :=
  if text = "off" then .ok .off else (Severity.parse text).map .on

end Level

end BusinessProcess.Lint
