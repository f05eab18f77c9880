import BusinessProcess.Lint.Registry
import BusinessProcess.TimeLimit.Basic

/-!
# Configurations

A configuration overrides the levels of rules and names the service task that time limits
escalate to. Overrides are applied one after the other; the first that names no level or no rule
stops there, and those before it stay applied.
-/

namespace BusinessProcess

/-- Level overrides, rule by rule, in the order in which they apply. -/
abbrev Overrides := Store String String

/-- The settings of an editor. -/
structure Configuration where
  rules : Overrides
  /-- The service task that time limits escalate to. -/
  delegate : String
deriving DecidableEq

/-- Why there is no usable configuration. -/
inductive ConfigurationError where
  /-- The text is no configuration. -/
  | unparsable
  /-- There is no file at the path asked for. -/
  | missingFile (path : String)
  /-- An override names a text that is no level. -/
  | invalidLevel (rule : String) (error : Lint.LevelError)
  /-- An override names an unknown rule. -/
  | unknownRule (error : Lint.LevelError)
deriving DecidableEq, Repr

/-- The wording of a configuration error. -/
def ConfigurationError.message : ConfigurationError → String
  | .unparsable => "Failed to parse TOML configuration"
  | .missingFile path => "Missing configuration file: " ++ path
  | .invalidLevel rule error => "Validation error: rule `" ++ rule ++ "`: " ++ error.message
  | .unknownRule error => "Validation error: " ++ error.message

namespace Overrides

/-- Applies one override. -/
def applyOne (registry : Lint.Registry) (rule level : String) :
    Except ConfigurationError Lint.Registry :=
  match Lint.Level.parse level with
  | .error error => .error (.invalidLevel rule error)
  | .ok level =>
      match registry.setLevel rule level with
      | .ok changed => .ok changed
      | .error error => .error (.unknownRule error)

/-- Applies overrides up to the first that is refused: the registry reached, and why it went no
further. -/
def applyAll (registry : Lint.Registry) :
    List (String × String) → Lint.Registry × Except ConfigurationError Unit
  | [] => (registry, .ok ())
  | (rule, level) :: rest =>
      match applyOne registry rule level with
      | .ok changed => applyAll changed rest
      | .error error => (registry, .error error)

/-- Applies all overrides to a registry. -/
def apply (overrides : Overrides) (registry : Lint.Registry) :
    Lint.Registry × Except ConfigurationError Unit :=
  applyAll registry overrides.entries

end Overrides

namespace Configuration

/-- The configuration without overrides. -/
def standard : Configuration where
  rules := .empty
  delegate := TimeLimit.defaultDelegate

end Configuration

end BusinessProcess
