import BusinessProcess.Proofs.TimeLimit.Installation

/-!
# What a change of time limits is made of

A change of a time limit describes its activity, uninstalls some limits and installs others. Which
of these steps it takes follows from the value entered and from the values kept; the process around
the activity has no part in it.
-/

namespace BusinessProcess.TimeLimit

open BusinessProcess.Graph

/-- A single step of a change of time limits. -/
inductive Step where
  /-- The attributes of the activity are changed. -/
  | describe (change : Attributes → Attributes)
  /-- The parts of a limit are erased. -/
  | uninstall (limit : TimeLimit)
  /-- The parts of a limit are put in place of those that are there. -/
  | install (setting : Setting)

/-- The process after one step for `activity`, which lies in `container`. -/
def Step.run (delegate : String) (container activity : ElementId) : Step → Graph → Graph
  | .describe change, graph =>
      graph.updateNode activity fun node => { node with attributes := change node.attributes }
  | .uninstall limit, graph => graph.without (isPartOf limit activity)
  | .install setting, graph =>
      equip delegate container activity setting (graph.without (isPartOf setting.limit activity))

/-- The process after all steps, one after the other. -/
def runSteps (delegate : String) (container activity : ElementId) (steps : List Step)
    (graph : Graph) : Graph :=
  steps.foldl (fun graph step => step.run delegate container activity graph) graph

@[simp] theorem runSteps_cons (delegate : String) (container activity : ElementId) (step : Step)
    (rest : List Step) (graph : Graph) :
    runSteps delegate container activity (step :: rest) graph =
      runSteps delegate container activity rest (step.run delegate container activity graph) :=
  rfl

/-- The steps that work out the given limits again. -/
def refreshSteps (attributes : Attributes) : (reached : Bool) → List TimeLimit → List Step
  | _, [] => []
  | false, limit :: rest => .uninstall limit :: refreshSteps attributes false rest
  | true, limit :: rest =>
      match due? attributes limit with
      | some setting => .install setting :: refreshSteps attributes true rest
      | none => .uninstall limit :: refreshSteps attributes false rest

/-- The steps of entering a value for a limit. -/
def enterSteps (attributes : Attributes) (limit : TimeLimit) (value : Option String) : List Step :=
  match Text.entered? value with
  | none =>
      .describe (·.erase limit.attributeKey) :: .uninstall limit ::
        refreshSteps (attributes.erase limit.attributeKey) false limit.dependents
  | some raw =>
      match derive attributes limit raw with
      | .error _ => []
      | .ok expression =>
          .describe (·.insert limit.attributeKey raw) :: .install ⟨limit, raw, expression⟩ ::
            refreshSteps (attributes.insert limit.attributeKey raw) true limit.dependents

end BusinessProcess.TimeLimit
