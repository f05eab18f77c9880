import BusinessProcess.ElementId
import BusinessProcess.Store
import BusinessProcess.Lint.Code
import BusinessProcess.Lint.Level

/-!
# Findings and reports

A finding says what is wrong with one element and which rule says so. A report gathers findings
in groups, one for each element, in the order in which the elements first came up; within a group
the findings keep the order in which they came in.
-/

namespace BusinessProcess.Lint

/-- What a rule has to say about an element. -/
structure Finding where
  element : ElementId
  /-- The name of the rule. -/
  rule : String
  code : Code
  /-- The severity that the rule was configured with. -/
  severity : Severity
  message : String
deriving DecidableEq, Repr

/-- The finding on one line. -/
def Finding.display (finding : Finding) : String :=
  finding.severity.text ++ "[" ++ finding.code.text ++ "] " ++ finding.element.text ++ ": "
    ++ finding.message ++ " (" ++ finding.rule ++ ")"

/-- Findings in groups, one group for each element. -/
structure Report where
  groups : Store ElementId (List Finding)
deriving DecidableEq

namespace Report

/-- The report without findings. -/
def empty : Report :=
  ⟨.empty⟩

/-- The report with one more finding, the last of its group. -/
def push (report : Report) (finding : Finding) : Report :=
  ⟨report.groups.upsert finding.element fun group => group.getD [] ++ [finding]⟩

/-- The report with more findings, taken in one after the other. -/
def extend (report : Report) (findings : List Finding) : Report :=
  findings.foldl push report

/-- The report of the given findings. -/
def ofFindings (findings : List Finding) : Report :=
  empty.extend findings

/-- All findings, group by group. -/
def findings (report : Report) : List Finding :=
  report.groups.values.flatten

/-- The findings on one element. -/
def get (report : Report) (element : ElementId) : List Finding :=
  (report.groups.get? element).getD []

/-- The findings of one rule, group by group. -/
def byRule (report : Report) (rule : String) : List Finding :=
  report.findings.filter fun finding => finding.rule = rule

/-- The number of findings that fail a process. -/
def errorCount (report : Report) : Nat :=
  report.findings.countP fun finding => finding.severity.isError

/-- The number of findings that are an advice. -/
def warningCount (report : Report) : Nat :=
  report.findings.countP fun finding => finding.severity.isWarning

/-- The number of findings. -/
def size (report : Report) : Nat :=
  report.groups.values.foldr (fun group count => group.length + count) 0

/-- Whether there is no group. -/
def isEmpty (report : Report) : Bool :=
  report.groups.isEmpty

/-- Whether no finding fails the process. -/
def passed (report : Report) : Bool :=
  !report.findings.any fun finding => finding.severity.isError

/-- Findings taken in one after the other make the same report as all taken in at once. -/
theorem extend_append (report : Report) (first second : List Finding) :
    report.extend (first ++ second) = (report.extend first).extend second :=
  List.foldl_append

/-- A finding comes last in the group of its element, and no other group changes. -/
theorem get_push (report : Report) (finding : Finding) (element : ElementId) :
    (report.push finding).get element =
      if element = finding.element then report.get element ++ [finding]
      else report.get element := by
  simp only [get, push, Store.get?_upsert]
  split
  next same => simp [same]
  next => rfl

/-- A report has as many findings as its groups together. -/
theorem size_eq_length_findings (report : Report) : report.size = report.findings.length := by
  rw [size, findings]
  induction report.groups.values with
  | nil => rfl
  | cons group rest inductionHypothesis =>
      rw [List.foldr_cons, List.flatten_cons, List.length_append, inductionHypothesis]

end Report

end BusinessProcess.Lint
