import BusinessProcess.Lint.Rule.Connection
import BusinessProcess.Lint.Rule.Duplicate
import BusinessProcess.Lint.Rule.Flow
import BusinessProcess.Lint.Rule.Gateway
import BusinessProcess.Lint.Rule.Label
import BusinessProcess.Lint.Rule.Scope

/-!
# Registries of rules

A registry lists rules by name, each with its level, in the order in which they run.
-/

namespace BusinessProcess.Lint

/-- A rule of a registry and its level. -/
structure Registration where
  rule : Rule
  level : Level

/-- Rules by name, in the order in which they run. -/
abbrev Registry := Store String Registration

namespace Registry

/-- The registry with a rule under its name. A rule of the same name is replaced in its place. -/
def register (registry : Registry) (rule : Rule) (level : Level) : Registry :=
  registry.insert rule.name ⟨rule, level⟩

/-- The level of the rule with the given name. -/
def level? (registry : Registry) (name : String) : Option Level :=
  (registry.get? name).map Registration.level

/-- Changes the level of a registered rule. -/
def setLevel (registry : Registry) (name : String) (level : Level) :
    Except LevelError Registry :=
  match registry.get? name with
  | some registration => .ok (registry.insert name { registration with level := level })
  | none => .error (.unknownRule name)

/-- The built-in rules with the severities recommended for them. -/
def recommendedRules : List (Rule × Severity) :=
  [(Rule.conditionalFlows, .error),
    (Rule.endEventRequired, .error),
    (Rule.eventSubProcessTypedStartEvent, .error),
    (Rule.fakeJoin, .warn),
    (Rule.labelRequired, .error),
    (Rule.noComplexGateway, .error),
    (Rule.noDisconnected, .error),
    (Rule.noDuplicateSequenceFlows, .error),
    (Rule.noGatewayJoinFork, .error),
    (Rule.noImplicitSplit, .error),
    (Rule.noInclusiveGateway, .error),
    (Rule.singleBlankStartEvent, .error),
    (Rule.singleEventDefinition, .error),
    (Rule.startEventRequired, .error),
    (Rule.subProcessBlankStartEvent, .error),
    (Rule.superfluousGateway, .warning)]

/-- The registry of the built-in rules at their recommended levels. -/
def recommended : Registry :=
  recommendedRules.foldl (fun registry entry => registry.register entry.1 (.on entry.2)) .empty

/-- A rule whose level was changed has the new level; every other rule keeps its own. -/
theorem level?_setLevel {registry changed : Registry} {name other : String} {level : Level}
    (done : registry.setLevel name level = .ok changed) :
    changed.level? other = if other = name then some level else registry.level? other := by
  unfold setLevel at done
  split at done
  next =>
    cases done
    simp only [level?, Store.get?_insert]
    split <;> rfl
  next => cases done

/-- Changing a level changes no name and no place. -/
theorem keys_setLevel {registry changed : Registry} {name : String} {level : Level}
    (done : registry.setLevel name level = .ok changed) : changed.keys = registry.keys := by
  unfold setLevel at done
  split at done
  next registration found =>
    cases done
    rw [Store.keys_insert, if_pos]
    exact Store.mem_keys_of_get? found
  next => cases done

end Registry

end BusinessProcess.Lint
