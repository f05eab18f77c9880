import BusinessProcess.Proofs.History.Reimport
import BusinessProcess.Proofs.Lint.Fault
import BusinessProcess.Proofs.Lint.Report

/-!
# Rules that go by what is drawn

Ten of the built-in rules do not depend on references to drawn flows. Nine of them look at no
references at all. The rule about connections does, but a reference to a drawn flow tells it nothing
that the drawn flow does not. What these rules find is therefore the same after any operations,
whether flows were drawn with references or without.
-/

namespace BusinessProcess.Lint

open BusinessProcess.Graph (bare unlinked)

/-- The rule says of what is left of an element, in what is left of the process, what it says of the
element. -/
def Rule.GoesByDrawing (rule : Rule) : Prop :=
  ∀ (graph : Graph) (met : List Element) (element : Element),
    rule.check graph.unlinked (met.map (Element.mapNode graph.bare))
      (element.mapNode graph.bare) = rule.check graph met element

namespace Rule

theorem goesByDrawing_ofNodeCheck {name : String} {code : Code}
    {check : Graph → Node → List Remark}
    (same : ∀ graph node, check graph.unlinked (graph.bare node) = check graph node) :
    (ofNodeCheck name code check).GoesByDrawing := by
  intro graph met element
  cases element with
  | flow flow => rfl
  | node node => simp only [ofNodeCheck, ofCheck, Element.mapNode, same]

@[simp] theorem remarkIf_bare (due : Bool) (graph : Graph) (node : Node) (message : String) :
    remarkIf due (graph.bare node) message = remarkIf due node message :=
  rfl

/-! ## Rules about kinds and scopes -/

theorem goesByDrawing_disallowKind (name : String) (code : Code) (kind : NodeKind) :
    (disallowKind name code kind).GoesByDrawing :=
  goesByDrawing_ofNodeCheck fun _ _ => rfl

theorem goesByDrawing_singleEventDefinition : singleEventDefinition.GoesByDrawing :=
  goesByDrawing_ofNodeCheck fun _ _ => rfl

/-- A rule that every scope has a certain node goes by what is drawn. -/
theorem goesByDrawing_ofMissing {name : String} {code : Code} {asked : Node → Bool} {what : String}
    (same : ∀ (graph : Graph) node, asked (graph.bare node) = asked node) :
    (ofNodeCheck name code fun graph node =>
      remarkIf (node.kind.isContainer && !(graph.childNodes node.id).any asked) node
        (scopeName node.kind ++ what)).GoesByDrawing := by
  refine goesByDrawing_ofNodeCheck fun graph node => ?_
  have held : ((graph.childNodes node.id).map graph.bare).any asked =
      (graph.childNodes node.id).any asked := by
    rw [List.any_map]
    exact congrArg (List.any _) (funext (same graph))
  simp only [Graph.kind_bare, Graph.id_bare, Graph.childNodes_unlinked, held, remarkIf_bare]

/-- A rule about some of the nodes in sub-processes of one kind goes by what is drawn. -/
theorem goesByDrawing_ofStarts {name : String} {code : Code} {isEventSubProcess : Bool}
    {asked : Node → Bool} {message : String}
    (same : ∀ (graph : Graph) node, asked (graph.bare node) = asked node) :
    (ofNodeCheck name code fun graph node =>
      if node.kind = .subProcess isEventSubProcess then
        ((graph.childNodes node.id).filter asked).map fun start => ⟨start.id, message⟩
      else []).GoesByDrawing := by
  refine goesByDrawing_ofNodeCheck fun graph node => ?_
  have held : ((graph.childNodes node.id).map graph.bare).filter asked =
      ((graph.childNodes node.id).filter asked).map graph.bare := by
    rw [List.filter_map]
    exact congrArg (List.map _) (congrArg (List.filter · _) (funext (same graph)))
  simp only [Graph.kind_bare, Graph.id_bare, Graph.childNodes_unlinked, held, List.map_map]
  rfl

theorem goesByDrawing_singleBlankStartEvent : singleBlankStartEvent.GoesByDrawing := by
  refine goesByDrawing_ofNodeCheck fun graph node => ?_
  have counted : ((graph.childNodes node.id).map graph.bare).countP isBlankStart =
      (graph.childNodes node.id).countP isBlankStart := by
    rw [List.countP_map]
    rfl
  simp only [Graph.kind_bare, Graph.id_bare, Graph.childNodes_unlinked, counted, remarkIf_bare]

/-! ## Rules about flows -/

theorem goesByDrawing_noDuplicateSequenceFlows : noDuplicateSequenceFlows.GoesByDrawing := by
  intro graph met element
  have compared : ∀ element : Element,
      comparedFlow? (element.mapNode graph.bare) = comparedFlow? element := by
    intro element
    cases element <;> rfl
  have before : (met.map (Element.mapNode graph.bare)).filterMap comparedFlow? =
      met.filterMap comparedFlow? := by
    rw [List.filterMap_map]
    exact List.filterMap_congr fun element _ => compared element
  simp only [noDuplicateSequenceFlows, compared, before]

theorem inEventScope_bare (graph : Graph) (node : Node) :
    inEventScope graph.unlinked (graph.bare node) = inEventScope graph node := by
  simp only [inEventScope, Graph.kind_bare, Graph.id_bare, Graph.ancestors_unlinked, List.any_map]
  rfl

/-- Leaving out references tells nothing where each of them comes with a drawn flow. -/
private theorem any_filter_or {references : List ElementId} {resolves leftOut : ElementId → Bool}
    {drawn : Bool} (comesWith : ∀ reference, leftOut reference = true → drawn = true) :
    ((references.filter (!leftOut ·)).any resolves || drawn) =
      (references.any resolves || drawn) := by
  cases drawn with
  | true => rw [Bool.or_true, Bool.or_true]
  | false =>
      have kept : ∀ reference, (!leftOut reference) = true := by
        intro reference
        rw [Bool.not_eq_true', ← Bool.not_eq_true]
        exact fun left => Bool.false_ne_true (comesWith reference left)
      simp only [kept, List.filter_true]

theorem isEntered_bare (graph : Graph) (node : Node) :
    isEntered graph.unlinked (graph.bare node) = isEntered graph node := by
  refine any_filter_or fun reference entered => ?_
  obtain ⟨drawn, found, isTarget⟩ := Graph.enters_iff.1 entered
  have member : drawn ∈ graph.flowsInto node.id :=
    List.mem_filter.2 ⟨Graph.mem_of_flow? found, decide_eq_true isTarget⟩
  rw [Bool.not_eq_true', List.isEmpty_eq_false_iff]
  exact List.ne_nil_of_mem member

theorem isLeft_bare (graph : Graph) (node : Node) :
    isLeft graph.unlinked (graph.bare node) = isLeft graph node := by
  refine any_filter_or fun reference left => ?_
  obtain ⟨drawn, found, isSource⟩ := Graph.leaves_iff.1 left
  have member : drawn ∈ graph.flowsFrom node.id :=
    List.mem_filter.2 ⟨Graph.mem_of_flow? found, decide_eq_true isSource⟩
  rw [Bool.not_eq_true', List.isEmpty_eq_false_iff]
  exact List.ne_nil_of_mem member

theorem goesByDrawing_noDisconnected : noDisconnected.GoesByDrawing := by
  refine goesByDrawing_ofNodeCheck fun graph node => ?_
  have introduced : ∀ message, introduce (graph.bare node) message = introduce node message :=
    fun _ => rfl
  simp only [Graph.kind_bare, inEventScope_bare, isEntered_bare, isLeft_bare, introduced,
    remarkIf_bare]

/-! ## The ten rules -/

/-- The names of the rules that go by containment, by descriptions and by what is drawn. -/
def drawingRules : List String :=
  ["end-event-required", "start-event-required", "event-sub-process-typed-start-event",
    "sub-process-blank-start-event", "single-blank-start-event", "single-event-definition",
    "no-complex-gateway", "no-inclusive-gateway", "no-disconnected",
    "no-duplicate-sequence-flows"]

theorem goesByDrawing_of_name :
    ∀ entry ∈ Registry.recommendedRules, entry.1.name ∈ drawingRules → entry.1.GoesByDrawing := by
  have other : ∀ {rule : Rule}, rule.name ∉ drawingRules → rule.name ∈ drawingRules →
      rule.GoesByDrawing := fun absent listed => absurd listed absent
  simp only [Registry.recommendedRules, List.forall_mem_cons]
  exact ⟨other (by decide), fun _ => goesByDrawing_ofMissing fun _ _ => rfl,
    fun _ => goesByDrawing_ofStarts fun _ _ => rfl, other (by decide), other (by decide),
    fun _ => goesByDrawing_disallowKind _ _ _, fun _ => goesByDrawing_noDisconnected,
    fun _ => goesByDrawing_noDuplicateSequenceFlows, other (by decide), other (by decide),
    fun _ => goesByDrawing_disallowKind _ _ _, fun _ => goesByDrawing_singleBlankStartEvent,
    fun _ => goesByDrawing_singleEventDefinition, fun _ => goesByDrawing_ofMissing fun _ _ => rfl,
    fun _ => goesByDrawing_ofStarts fun _ _ => rfl, other (by decide),
    fun _ absent => absurd absent List.not_mem_nil⟩

end Rule

/-! ## Runs on what is left of a process -/

/-- The findings under the name of rules that go by what is drawn are the same in what is left of a
process. -/
theorem filter_findingsOn_unlinked {rules : List ActiveRule} {name : String}
    (notEngine : name ≠ Attribution.engine.rule)
    (goesByDrawing : ∀ active ∈ rules, active.rule.name = name → active.rule.GoesByDrawing)
    (translate : Translator) (graph : Graph) (met elements : List Element) :
    (findingsOn rules translate graph.unlinked (met.map (Element.mapNode graph.bare))
        (elements.map (Element.mapNode graph.bare))).filter (·.rule = name) =
      (findingsOn rules translate graph met elements).filter (·.rule = name) := by
  have sameId : ∀ element : Element, (element.mapNode graph.bare).id = element.id := by
    intro element
    cases element <;> rfl
  have each : ∀ met element, ∀ active ∈ rules,
      (active.findings translate graph.unlinked (met.map (Element.mapNode graph.bare))
        (element.mapNode graph.bare)).filter (·.rule = name) =
      (active.findings translate graph met element).filter (·.rule = name) := by
    intro met element active isActive
    by_cases named : active.rule.name = name
    · simp only [ActiveRule.findings, goesByDrawing active isActive named graph met element, sameId]
    · have nothing : ∀ graph met element,
          (active.findings translate graph met element).filter (·.rule = name) = [] := by
        intro graph met element
        refine List.filter_eq_nil_iff.2 fun finding member => ?_
        rw [decide_eq_true_eq]
        rintro rfl
        rcases active.attributed_of_mem_findings member with ⟨own, _⟩ | ⟨engine, _⟩
        · exact named own.symm
        · exact notEngine engine
      rw [nothing, nothing]
  induction elements generalizing met with
  | nil => rfl
  | cons element rest inductionHypothesis =>
      rw [List.map_cons, findingsOn, findingsOn, List.filter_append, List.filter_append,
        List.filter_flatMap, List.filter_flatMap, List.flatMap_congr (each met element)]
      exact congrArg _ (inductionHypothesis (element :: met))

/-- A run of built-in rules finds under the names of the ten rules what it finds in what is left of
the process. -/
theorem filter_get_run_unlinked {registry : Registry} (builtIn : registry.BuiltIn)
    (translate : Translator) (graph : Graph) (element : ElementId) {name : String}
    (isDrawing : name ∈ Rule.drawingRules) :
    ((run registry translate graph.unlinked).get element).filter (·.rule = name) =
      ((run registry translate graph).get element).filter (·.rule = name) := by
  have notEngine : name ≠ Attribution.engine.rule := by
    rintro rfl
    revert isDrawing
    decide
  have goesByDrawing : ∀ active ∈ activeRules registry, active.rule.name = name →
      active.rule.GoesByDrawing := by
    rintro active isActive rfl
    obtain ⟨severity, isBuiltIn⟩ := builtIn.exists_severity isActive
    exact Rule.goesByDrawing_of_name _ isBuiltIn isDrawing
  have same := filter_findingsOn_unlinked notEngine goesByDrawing translate graph [] graph.walk
  rw [List.map_nil, ← Graph.walk_unlinked] at same
  rw [run, run, Report.get_ofFindings, Report.get_ofFindings, List.filter_comm, same,
    List.filter_comm]

/-! ## Processes read from documents -/

/-- Whatever is done to a process, reading it from a document that omits references changes the
answer of no operation, and for each of the ten rules the reports on the two processes list the same
findings on each element, at any levels. -/
theorem reimport_findings (root : ElementId) {operations others : List Operation}
    (readAs : List.Forall₂ Operation.ReadAs operations others) :
    let original := Operation.performAll operations (.new root)
    let copy := Operation.performAll others (.new root)
    original.1 = copy.1 ∧
      ∀ registry : Registry, registry.BuiltIn → ∀ (translate : Translator),
        ∀ name ∈ Rule.drawingRules, ∀ element : ElementId,
          ((run registry translate original.2).get element).filter (·.rule = name) =
            ((run registry translate copy.2).get element).filter (·.rule = name) := by
  intro original copy
  obtain ⟨sameAnswers, alike⟩ :=
    Operation.performAll_alike readAs (rfl : (Graph.new root).DrawnAlike _)
  refine ⟨sameAnswers, fun registry builtIn translate name isDrawing element => ?_⟩
  rw [← filter_get_run_unlinked builtIn translate original.2 element isDrawing,
    ← filter_get_run_unlinked builtIn translate copy.2 element isDrawing, alike]

/-- A task that a start event leads to, with a stale reference and a time limit: in the document the
reference to the flow is missing, and the rule about connections still finds one flow only missing,
the one behind the task. -/
theorem reimport_findings_of_limited :
    let task : Node := { Node.alone ⟨"T"⟩ (.task .user) with outgoing := [⟨"Stale"⟩] }
    let flow : SequenceFlow := .between ⟨"F"⟩ ⟨"S"⟩ ⟨"T"⟩
    let built (draw : Edit) : List Operation :=
      [.edit (.addNode ⟨"P"⟩ (.alone ⟨"S"⟩ (.event .start))), .edit (.addNode ⟨"P"⟩ task),
        .edit draw, .timers (.setLimit "delegate" ⟨"T"⟩ .deadline (some "2H")),
        .edit (.removeFlow ⟨"Stale"⟩)]
    let original := Operation.performAll (built (.addFlow ⟨"P"⟩ flow)) (.new ⟨"P"⟩)
    let copy := Operation.performAll (built (.addFlowUnlinked ⟨"P"⟩ flow)) (.new ⟨"P"⟩)
    original.1 = copy.1 ∧ original.2 ≠ copy.2 ∧
      (∀ registry : Registry, registry.BuiltIn → ∀ (translate : Translator),
        ∀ name ∈ Rule.drawingRules, ∀ element : ElementId,
          ((run registry translate original.2).get element).filter (·.rule = name) =
            ((run registry translate copy.2).get element).filter (·.rule = name)) ∧
      ((run .recommended (fun message => message) copy.2).get ⟨"T"⟩).filter
          (·.rule = "no-disconnected") =
        [⟨⟨"T"⟩, "no-disconnected", .disconnected, .error,
          "UserTask: Element is not right connected"⟩] := by
  intro task flow built original copy
  have readAs : List.Forall₂ Operation.ReadAs (built (.addFlow ⟨"P"⟩ flow))
      (built (.addFlowUnlinked ⟨"P"⟩ flow)) :=
    .cons (.same _) (.cons (.same _) (.cons (.unlinked ⟨"P"⟩ flow)
      (.cons (.same _) (.cons (.same _) .nil))))
  obtain ⟨sameAnswers, sameFindings⟩ := reimport_findings ⟨"P"⟩ readAs
  refine ⟨sameAnswers, ?_, sameFindings, ?_⟩
  · decide +kernel
  · decide +kernel

end BusinessProcess.Lint
