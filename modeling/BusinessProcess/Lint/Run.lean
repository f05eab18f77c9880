import BusinessProcess.Graph.Walk
import BusinessProcess.Lint.Registry

/-!
# Lint runs

A run shows every element of a process to every rule that is on: the elements in the order of the
walk and, for each of them, the rules in the order of the registry. What a rule remarks becomes a
finding under its name and severity. A fault of a rule becomes a finding of its own, always an
error, and neither ends the run nor touches other rules.
-/

namespace BusinessProcess.Lint

/-- Turns each message into the one that is shown. -/
abbrev Translator := String → String

/-- Who a finding is attributed to. -/
structure Attribution where
  rule : String
  code : Code
  severity : Severity

namespace Attribution

/-- Faults of rules are attributed to the run itself. -/
def engine : Attribution :=
  ⟨"engine-error", .ruleFault, .error⟩

/-- A remark as a finding. -/
def finding (attribution : Attribution) (translate : Translator) (remark : Remark) : Finding where
  element := remark.element
  rule := attribution.rule
  code := attribution.code
  severity := attribution.severity
  message := translate remark.message

/-- The fault of a rule on an element as a finding. The reason is not translated. -/
def faultFinding (rule : String) (translate : Translator) (element : ElementId)
    (fault : RuleFault) : Finding where
  element := element
  rule := engine.rule
  code := engine.code
  severity := engine.severity
  message := translate "Rule failed on this element" ++ " (" ++ rule ++ "): " ++ fault.message

end Attribution

/-- A rule that takes part in a run, with the severity of its findings. -/
structure ActiveRule where
  rule : Rule
  severity : Severity

namespace ActiveRule

/-- A registered rule takes part unless it is off. -/
def ofRegistration? (registration : Registration) : Option ActiveRule :=
  registration.level.severity?.map fun severity => ⟨registration.rule, severity⟩

/-- Who the remarks of the rule are attributed to. -/
def attribution (active : ActiveRule) : Attribution :=
  ⟨active.rule.name, active.rule.code, active.severity⟩

/-- The findings of a rule on an element, given the elements met before: its remarks, then its
fault if there is one. -/
def findings (active : ActiveRule) (translate : Translator) (graph : Graph)
    (met : List Element) (element : Element) : List Finding :=
  let verdict := active.rule.check graph met element
  verdict.remarks.map (active.attribution.finding translate)
    ++ verdict.fault.toList.map
      (Attribution.faultFinding active.rule.name translate element.id)

end ActiveRule

/-- The rules of a registry that are on, in the order in which they run. -/
def activeRules (registry : Registry) : List ActiveRule :=
  registry.values.filterMap ActiveRule.ofRegistration?

/-- The findings of several rules on a sequence of elements, given the elements met before. -/
def findingsOn (rules : List ActiveRule) (translate : Translator) (graph : Graph) :
    (met : List Element) → List Element → List Finding
  | _, [] => []
  | met, element :: rest =>
      rules.flatMap (fun active => active.findings translate graph met element)
        ++ findingsOn rules translate graph (element :: met) rest

/-- The report of a run of all rules that are on. -/
def run (registry : Registry) (translate : Translator) (graph : Graph) : Report :=
  .ofFindings (findingsOn (activeRules registry) translate graph [] graph.walk)

end BusinessProcess.Lint
