import BusinessProcess.Graph.Basic
import BusinessProcess.Lint.Report

/-!
# Rules

A rule looks at every element of a process once, in the order of the walk, and remarks on what is
wrong. Besides the element it is shown those that were met before, so that it may compare. A rule
that cannot make sense of an element stops there with a fault, and what it remarked before stands.
-/

namespace BusinessProcess.Lint

/-- What a rule remarks about an element; who says so is added by the run. -/
structure Remark where
  element : ElementId
  message : String
deriving DecidableEq, Repr

/-- Why a rule could not make sense of an element. -/
inductive RuleFault where
  /-- The process could not be read as the rule needs it. -/
  | graph (error : GraphError)
  /-- The element is not of the shape that the rule expects. -/
  | malformed (element : ElementId) (reason : String)
deriving DecidableEq, Repr

/-- The wording of a fault. -/
def RuleFault.message : RuleFault → String
  | .graph error => error.message
  | .malformed element reason => "element `" ++ element.text ++ "` is malformed: " ++ reason

/-- The outcome of one check: what the rule remarks, and whether it stopped with a fault. -/
structure Verdict where
  remarks : List Remark
  fault : Option RuleFault
deriving DecidableEq, Repr

/-- A check of every element of a process. -/
structure Rule where
  /-- The name by which the rule is configured. -/
  name : String
  code : Code
  /-- The verdict on an element, given the elements met before, the latest first. -/
  check : (graph : Graph) → (met : List Element) → Element → Verdict

namespace Rule

/-- A rule that looks at each element by itself and either stops with a fault or says all that it
has to say. -/
def ofCheck (name : String) (code : Code)
    (check : Graph → Element → Except RuleFault (List Remark)) : Rule where
  name := name
  code := code
  check graph _ element :=
    match check graph element with
    | .ok remarks => ⟨remarks, none⟩
    | .error fault => ⟨[], some fault⟩

/-- A rule that looks at each node by itself and never stops with a fault. -/
def ofNodeCheck (name : String) (code : Code) (check : Graph → Node → List Remark) : Rule :=
  ofCheck name code fun graph element =>
    match element with
    | .node node => .ok (check graph node)
    | .flow _ => .ok []

/-- The verdicts on a sequence of elements, given the elements met before, the latest first. -/
def verdicts (rule : Rule) (graph : Graph) : (met : List Element) → List Element → List Verdict
  | _, [] => []
  | met, element :: rest =>
      rule.check graph met element :: rule.verdicts graph (element :: met) rest

/-- The one remark `message` on a node, made only if it is `due`. -/
def remarkIf (due : Bool) (node : Node) (message : String) : List Remark :=
  if due then [⟨node.id, message⟩] else []

end Rule

end BusinessProcess.Lint
