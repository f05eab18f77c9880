import BusinessProcess.Proofs.Graph.Walk
import BusinessProcess.Proofs.History.Connectivity
import BusinessProcess.Proofs.Lint.Registry
import BusinessProcess.Proofs.Lint.Report

/-!
# Faults of rules

A run attributes the faults of rules to itself. The built-in rules have only one cause for a fault,
a reference that leads nowhere, so no run of them reports a fault on a process whose references
and drawn flows agree.
-/

namespace BusinessProcess

namespace Lint

/-! ## Rules without faults -/

/-- A rule makes sense of every element of a process. -/
def Rule.Faultless (graph : Graph) (rule : Rule) : Prop :=
  ∀ met, ∀ element ∈ graph.elements, (rule.check graph met element).fault = none

namespace Rule

variable {graph : Graph}

/-- A rule whose checks succeed makes sense of every element. -/
theorem faultless_ofCheck {name : String} {code : Code}
    {check : Graph → Element → Except RuleFault (List Remark)}
    (succeeds : ∀ element ∈ graph.elements, ∃ remarks, check graph element = .ok remarks) :
    (ofCheck name code check).Faultless graph := by
  intro met element member
  obtain ⟨remarks, done⟩ := succeeds element member
  simp only [ofCheck, done]

/-- A rule that looks at nodes by themselves makes sense of every element. -/
theorem faultless_ofNodeCheck {name : String} {code : Code}
    {check : Graph → Node → List Remark} : (ofNodeCheck name code check).Faultless graph := by
  refine faultless_ofCheck fun element _ => ?_
  cases element with
  | node node => exact ⟨_, rfl⟩
  | flow flow => exact ⟨_, rfl⟩

theorem faultless_labelRequired : labelRequired.Faultless graph :=
  faultless_ofCheck fun _ _ => ⟨_, rfl⟩

theorem faultless_noDuplicateSequenceFlows : noDuplicateSequenceFlows.Faultless graph := by
  intro met element _
  simp only [noDuplicateSequenceFlows]
  split <;> rfl

/-- The references of every node to the flows that leave it lead to drawn flows. -/
abbrev Resolves (graph : Graph) : Prop :=
  ∀ node ∈ graph.nodes, ∃ flows, graph.outgoing node.id = .ok flows

theorem faultless_conditionalFlows (resolves : Resolves graph) :
    conditionalFlows.Faultless graph := by
  refine faultless_ofCheck fun element member => ?_
  cases element with
  | flow flow => exact ⟨_, rfl⟩
  | node node =>
      obtain ⟨flows, found⟩ := resolves node (Graph.node_mem_elements.1 member)
      simp only [found]
      split
      next => exact ⟨_, rfl⟩
      next => split <;> exact ⟨_, rfl⟩

theorem faultless_noImplicitSplit (resolves : Resolves graph) :
    noImplicitSplit.Faultless graph := by
  refine faultless_ofCheck fun element member => ?_
  cases element with
  | flow flow => exact ⟨_, rfl⟩
  | node node =>
      obtain ⟨flows, found⟩ := resolves node (Graph.node_mem_elements.1 member)
      simp only [found]
      split <;> exact ⟨_, rfl⟩

/-- Where references lead to drawn flows, every built-in rule makes sense of every element. -/
theorem faultless_recommended (resolves : Resolves graph) :
    ∀ entry ∈ Registry.recommendedRules, entry.1.Faultless graph := by
  simp only [Registry.recommendedRules, List.forall_mem_cons]
  exact ⟨faultless_conditionalFlows resolves, faultless_ofNodeCheck, faultless_ofNodeCheck,
    faultless_ofNodeCheck, faultless_labelRequired, faultless_ofNodeCheck, faultless_ofNodeCheck,
    faultless_noDuplicateSequenceFlows, faultless_ofNodeCheck, faultless_noImplicitSplit resolves,
    faultless_ofNodeCheck, faultless_ofNodeCheck, faultless_ofNodeCheck, faultless_ofNodeCheck,
    faultless_ofNodeCheck, faultless_ofNodeCheck, fun _ absent => absurd absent List.not_mem_nil⟩

end Rule

/-! ## Runs without faults -/

/-- Only built-in rules are registered, each at any level. -/
def Registry.BuiltIn (registry : Registry) : Prop :=
  ∀ registration ∈ registry.values, ∃ severity,
    (registration.rule, severity) ∈ Registry.recommendedRules

/-- What is registered after an insertion is the new registration or was there before. -/
private theorem mem_values_insert {registry : Registry} {name : String}
    {added registration : Registration}
    (member : registration ∈ (Store.insert registry name added).values) :
    registration = added ∨ registration ∈ registry.values := by
  obtain ⟨entry, listed, rfl⟩ := List.mem_map.1 member
  rcases Store.mem_entries_insert listed with rfl | before
  · exact .inl rfl
  · exact .inr (List.mem_map_of_mem before)

/-- Registering a built-in rule keeps a registry built in. -/
theorem Registry.BuiltIn.register {registry : Registry} (builtIn : registry.BuiltIn) {rule : Rule}
    {severity : Severity} (known : (rule, severity) ∈ Registry.recommendedRules) (level : Level) :
    (registry.register rule level).BuiltIn := by
  intro registration member
  rcases mem_values_insert member with rfl | isOld
  · exact ⟨severity, known⟩
  · exact builtIn registration isOld

/-- The recommended registry is built in. -/
theorem Registry.builtIn_recommended : Registry.recommended.BuiltIn := by
  have grows : ∀ entries : List (Rule × Severity), ∀ registry : Registry,
      (∀ entry ∈ entries, entry ∈ Registry.recommendedRules) → registry.BuiltIn →
        (entries.foldl (fun registry entry => registry.register entry.1 (.on entry.2))
          registry).BuiltIn := by
    intro entries
    induction entries with
    | nil => exact fun _ _ builtIn => builtIn
    | cons entry rest inductionHypothesis =>
        intro registry known builtIn
        exact inductionHypothesis _
          (fun other member => known other (List.mem_cons_of_mem _ member))
          (builtIn.register (known entry List.mem_cons_self) _)
  exact grows Registry.recommendedRules .empty (fun _ member => member)
    fun _ absent => absurd absent List.not_mem_nil

/-- Changing levels keeps a registry built in. -/
theorem Registry.BuiltIn.setLevel {registry changed : Registry} (builtIn : registry.BuiltIn)
    {name : String} {level : Level} (done : registry.setLevel name level = .ok changed) :
    changed.BuiltIn := by
  obtain ⟨before, found, rfl⟩ := Registry.exists_of_setLevel done
  intro registration member
  rcases mem_values_insert member with rfl | isOld
  · exact builtIn before (Store.mem_values_of_get? found)
  · exact builtIn registration isOld

/-- The rules of a built-in registry that are on are built-in rules. -/
theorem Registry.BuiltIn.exists_severity {registry : Registry} (builtIn : registry.BuiltIn)
    {active : ActiveRule} (isActive : active ∈ activeRules registry) :
    ∃ severity, (active.rule, severity) ∈ Registry.recommendedRules := by
  obtain ⟨registration, isRegistered, turnedOn⟩ := List.mem_filterMap.1 isActive
  obtain ⟨severity, _, rfl⟩ := Option.map_eq_some_iff.1 turnedOn
  exact builtIn registration isRegistered

/-- A finding bears the name and the code of the rule that made it, or those of faults. -/
theorem ActiveRule.attributed_of_mem_findings {active : ActiveRule} {translate : Translator}
    {graph : Graph} {met : List Element} {element : Element} {finding : Finding}
    (member : finding ∈ active.findings translate graph met element) :
    (finding.rule = active.rule.name ∧ finding.code = active.rule.code) ∨
      (finding.rule = Attribution.engine.rule ∧ finding.code = Attribution.engine.code) := by
  rcases List.mem_append.1 member with isRemark | isFault
  · obtain ⟨remark, _, rfl⟩ := List.mem_map.1 isRemark
    exact .inl ⟨rfl, rfl⟩
  · obtain ⟨fault, _, rfl⟩ := List.mem_map.1 isFault
    exact .inr ⟨rfl, rfl⟩

/-- No finding on elements that the rules make sense of is the fault of a rule. -/
theorem mem_findingsOn {rules : List ActiveRule} {translate : Translator} {graph : Graph}
    {met elements : List Element}
    (faultless : ∀ active ∈ rules, active.rule.Faultless graph)
    (known : ∀ element ∈ elements, element ∈ graph.elements) {finding : Finding}
    (member : finding ∈ findingsOn rules translate graph met elements) :
    ∃ active ∈ rules, finding.rule = active.rule.name ∧ finding.code = active.rule.code := by
  induction elements generalizing met with
  | nil => cases member
  | cons element rest inductionHypothesis =>
      rcases List.mem_append.1 member with here | later
      · obtain ⟨active, isActive, found⟩ := List.mem_flatMap.1 here
        have none := faultless active isActive met element (known element List.mem_cons_self)
        simp only [ActiveRule.findings, none, Option.toList_none, List.map_nil, List.append_nil]
          at found
        obtain ⟨remark, _, rfl⟩ := List.mem_map.1 found
        exact ⟨active, isActive, rfl, rfl⟩
      · exact inductionHypothesis
          (fun other isLater => known other (List.mem_cons_of_mem _ isLater)) later

/-- No built-in rule goes by the name or the code under which faults are reported. -/
theorem recommended_ne_engine : ∀ entry ∈ Registry.recommendedRules,
    entry.1.name ≠ Attribution.engine.rule ∧ entry.1.code ≠ Attribution.engine.code := by
  decide

/-- Where references lead to drawn flows, no run of built-in rules reports a fault. -/
theorem ne_engine_of_mem_run {registry : Registry} (builtIn : registry.BuiltIn)
    {translate : Translator} {graph : Graph} (resolves : Rule.Resolves graph) {finding : Finding}
    (member : finding ∈ (run registry translate graph).findings) :
    finding.rule ≠ Attribution.engine.rule ∧ finding.code ≠ Attribution.engine.code := by
  have faultless : ∀ active ∈ activeRules registry, active.rule.Faultless graph := by
    intro active isActive
    obtain ⟨severity, isBuiltIn⟩ := builtIn.exists_severity isActive
    exact Rule.faultless_recommended resolves _ isBuiltIn
  have found := (Report.findings_ofFindings_perm _).mem_iff.1 member
  obtain ⟨active, isActive, sameRule, sameCode⟩ :=
    mem_findingsOn faultless (fun _ => Graph.mem_elements_of_walk) found
  obtain ⟨severity, isBuiltIn⟩ := builtIn.exists_severity isActive
  rw [sameRule, sameCode]
  exact recommended_ne_engine _ isBuiltIn

end Lint

/-! ## Agreement -/

/-- As long as no node brings references along, each node refers to exactly those of its drawn
flows that were last added with their references, each once and in the order in which they are
drawn. Where all flows are added so, these are all flows of the node. In either case no run of
built-in rules, at whatever levels, reports the fault of a rule. -/
theorem Reached.views_agree {policy : Policy} {root : ElementId} {ledger : Ledger}
    (reached : Reached policy root ledger) (noReferences : policy.rawReferences = false) :
    (∀ node ∈ ledger.graph.nodes,
      ledger.graph.incoming node.id =
          .ok ((ledger.graph.flowsInto node.id).filter fun flow => ledger.linked flow.id) ∧
        ledger.graph.outgoing node.id =
          .ok ((ledger.graph.flowsFrom node.id).filter fun flow => ledger.linked flow.id) ∧
        (ledger.graph.flowsInto node.id).Nodup ∧ (ledger.graph.flowsFrom node.id).Nodup) ∧
      (policy.unlinkedFlows = false → ∀ node ∈ ledger.graph.nodes,
        ledger.graph.incoming node.id = .ok (ledger.graph.flowsInto node.id) ∧
          ledger.graph.outgoing node.id = .ok (ledger.graph.flowsFrom node.id)) ∧
      ∀ registry : Lint.Registry, registry.BuiltIn → ∀ translate,
        ∀ finding ∈ (Lint.run registry translate ledger.graph).findings,
          finding.rule ≠ "engine-error" ∧ finding.code ≠ .ruleFault := by
  have consistent := reached.consistent noReferences
  have distinct := consistent.wellFormed.distinct
  refine ⟨fun node member => ⟨consistent.incoming_eq member, consistent.outgoing_eq member,
    (Graph.nodup_flows distinct).filter _, (Graph.nodup_flows distinct).filter _⟩, ?_, ?_⟩
  · intro alwaysLinked node member
    have linked := (reached.fullyLinked noReferences alwaysLinked).linked
    rw [consistent.incoming_eq member, consistent.outgoing_eq member]
    constructor
    · exact congrArg _ (List.filter_eq_self.2 fun flow drawn =>
        linked flow (List.mem_of_mem_filter drawn))
    · exact congrArg _ (List.filter_eq_self.2 fun flow drawn =>
        linked flow (List.mem_of_mem_filter drawn))
  · intro registry builtIn translate finding member
    refine Lint.ne_engine_of_mem_run builtIn (fun node present => ?_) member
    exact ⟨_, consistent.outgoing_eq present⟩

/-- A task with a loop and a deadline refers to its loop on both sides. -/
theorem views_agree_of_loop : ∃ ledger, Reached ⟨false, false⟩ ⟨"P"⟩ ledger ∧
    ledger.graph.contains ⟨"T_overtime_service_flow"⟩ = true ∧
    (ledger.graph.flowsInto ⟨"T"⟩).map SequenceFlow.id = [⟨"F"⟩] ∧
    (∀ node ∈ ledger.graph.nodes,
      ledger.graph.incoming node.id = .ok (ledger.graph.flowsInto node.id) ∧
        ledger.graph.outgoing node.id = .ok (ledger.graph.flowsFrom node.id)) ∧
    ∀ finding ∈ (Lint.run Lint.Registry.recommended id ledger.graph).findings,
      finding.rule ≠ "engine-error" ∧ finding.code ≠ .ruleFault := by
  let task : Node := .alone ⟨"T"⟩ (.task .user)
  let built := ((Ledger.new ⟨"P"⟩).record (.addNode ⟨"P"⟩ task)).record
    (.addFlow ⟨"P"⟩ (.between ⟨"F"⟩ ⟨"T"⟩ ⟨"T"⟩))
  have isBuilt : Reached ⟨false, false⟩ ⟨"P"⟩ built := by
    refine .edit (.edit .new (.fresh ⟨"T"⟩ (.task .user) ?_)) trivial
    exact ⟨rfl, rfl, rfl, rfl, fun _ => ⟨rfl, rfl⟩⟩
  obtain ⟨timed, isTimed, timedGraph⟩ :=
    isBuilt.exists_left (.setLimit "delegate" ⟨"T"⟩ .deadline (some "2H"))
  obtain ⟨_, agree, faultless⟩ := isTimed.views_agree rfl
  refine ⟨timed, isTimed, ?_, ?_, agree rfl,
    faultless Lint.Registry.recommended Lint.Registry.builtIn_recommended id⟩
  · rw [timedGraph]
    decide
  · rw [timedGraph]
    decide

end BusinessProcess
