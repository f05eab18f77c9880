import BusinessProcess.Proofs.Graph.Walk
import BusinessProcess.Proofs.History.Integrity
import BusinessProcess.Proofs.Lint.Contribution

/-!
# Isolation of rules

What a rule contributes to a report depends on the process and on its own severity alone. Levels
may therefore be changed one by one: a change shows in what the rule itself contributes, a fault
of a rule stays with this rule, and a process that passes still passes when a rule loses weight.
-/

namespace BusinessProcess

namespace Lint

/-- The findings on an element that originate from other rules than the named one. -/
def findingsOfOthers (name : String) (registry : Registry) (translate : Translator) (graph : Graph)
    (element : ElementId) : List Finding :=
  ((contributions registry translate graph).filter fun contribution =>
    contribution.origin ≠ name ∧ contribution.finding.element = element).map Contribution.finding

section Change

variable {registry changed : Registry} {name : String} {level : Level} {translate : Translator}
  {graph : Graph} {contribution : Contribution}

/-- The findings on an element are those of its contributions. -/
theorem get_run (registry : Registry) (translate : Translator) (graph : Graph)
    (element : ElementId) :
    (run registry translate graph).get element =
      ((contributions registry translate graph).filter fun contribution =>
        contribution.finding.element = element).map Contribution.finding := by
  rw [run_eq_ofFindings, Report.get_ofFindings, List.filter_map]
  rfl

/-- A process passes exactly if no contribution fails it. -/
theorem passed_run_iff : (run registry translate graph).passed = true ↔
    ∀ contribution ∈ contributions registry translate graph,
      contribution.finding.severity.isError = false := by
  rw [run_eq_ofFindings, Report.passed_ofFindings_iff, List.forall_mem_map]

/-- A contribution is the fault of its origin, which is an error on the element that was checked,
or it has the name and the severity of its origin, which is on. -/
theorem Registry.Named.of_mem_contributions (named : registry.Named)
    (made : contribution ∈ contributions registry translate graph) :
    if contribution.isFault then
      contribution.finding.element = contribution.visited ∧
        contribution.finding.rule = "engine-error" ∧ contribution.finding.code = .ruleFault ∧
        contribution.finding.severity = .error
    else
      contribution.finding.rule = contribution.origin ∧
        registry.level? contribution.origin = some (.on contribution.finding.severity) := by
  obtain ⟨active, isActive, met, element, _, madeHere⟩ := exists_of_mem_contributionsOn made
  have found := named.get?_of_active isActive
  rcases List.mem_append.1 madeHere with isRemark | isFault
  · obtain ⟨remark, _, rfl⟩ := List.mem_map.1 isRemark
    exact ⟨rfl, congrArg (Option.map Registration.level) found⟩
  · obtain ⟨fault, _, rfl⟩ := List.mem_map.1 isFault
    exact ⟨rfl, rfl, rfl, rfl⟩

/-- Every contribution originates from a rule that is on. -/
theorem Registry.Named.origin_is_on (named : registry.Named)
    (made : contribution ∈ contributions registry translate graph) :
    ∃ severity, registry.level? contribution.origin = some (.on severity) := by
  obtain ⟨active, isActive, _, _, _, madeHere⟩ := exists_of_mem_contributionsOn made
  rw [(ActiveRule.origin_of_mem_contributions madeHere).1]
  exact ⟨active.severity, congrArg (Option.map Registration.level) (named.get?_of_active isActive)⟩

/-- What other rules contribute does not depend on the level of a rule. -/
theorem Registry.Named.contributions_of_others (named : registry.Named)
    (done : registry.setLevel name level = .ok changed) (translate : Translator) (graph : Graph) :
    (contributions changed translate graph).filter (fun contribution =>
        contribution.origin ≠ name) =
      (contributions registry translate graph).filter fun contribution =>
        contribution.origin ≠ name := by
  simp only [contributions, filter_origin_contributionsOn fun origin => decide (origin ≠ name),
    named.active_others done]

theorem Registry.Named.findingsOfOthers_eq (named : registry.Named)
    (done : registry.setLevel name level = .ok changed) (translate : Translator) (graph : Graph)
    (element : ElementId) :
    findingsOfOthers name changed translate graph element =
      findingsOfOthers name registry translate graph element := by
  have others : ∀ registry, findingsOfOthers name registry translate graph element =
      (((contributions registry translate graph).filter fun contribution =>
        contribution.origin ≠ name).filter fun contribution =>
          contribution.finding.element = element).map Contribution.finding := by
    intro registry
    simp only [findingsOfOthers, List.filter_filter, Bool.decide_and, Bool.and_comm]
  rw [others, others, named.contributions_of_others done]

/-- Changing a rule that is on to another severity shows in the severity of its remarks only. -/
theorem Registry.Named.contributions_recast (named : registry.Named) {before severity : Severity}
    (isOn : registry.level? name = some (.on before))
    (done : registry.setLevel name (.on severity) = .ok changed) (translate : Translator)
    (graph : Graph) :
    contributions changed translate graph =
      (contributions registry translate graph).map (Contribution.recast name severity) := by
  rw [contributions, named.active_recast isOn done, contributionsOn_recast, contributions]

theorem Contribution.element_recast (name : String) (severity : Severity)
    (contribution : Contribution) :
    (contribution.recast name severity).finding.element = contribution.finding.element := by
  unfold Contribution.recast
  split <;> rfl

theorem Contribution.origin_recast (name : String) (severity : Severity)
    (contribution : Contribution) :
    (contribution.recast name severity).origin = contribution.origin := by
  unfold Contribution.recast
  split <;> rfl

/-- The groups of a report do not depend on the severities. -/
theorem Registry.Named.keys_run_recast (named : registry.Named) {before severity : Severity}
    (isOn : registry.level? name = some (.on before))
    (done : registry.setLevel name (.on severity) = .ok changed) :
    (run changed translate graph).groups.keys = (run registry translate graph).groups.keys := by
  rw [run_eq_ofFindings, run_eq_ofFindings, named.contributions_recast isOn done]
  refine Report.keys_ofFindings_congr ?_
  rw [List.map_map, List.map_map, List.map_map]
  exact List.map_congr_left fun contribution _ => contribution.element_recast name severity

/-- A process that passes with a rule as an error passes with this rule at any level. -/
theorem Registry.Named.passed_of_lowered (named : registry.Named)
    (strict : registry.level? name = some (.on .error))
    (done : registry.setLevel name level = .ok changed)
    (passed : (run registry translate graph).passed = true) :
    (run changed translate graph).passed = true := by
  rw [passed_run_iff] at passed ⊢
  -- A rule that is an error has contributed nothing where the process passes.
  have silent : ∀ contribution ∈ contributions registry translate graph,
      contribution.origin ≠ name := by
    intro contribution made isOrigin
    have failing : contribution.finding.severity = .error := by
      have attributed := named.of_mem_contributions made
      split at attributed
      next => exact attributed.2.2.2
      next =>
        rw [isOrigin, strict] at attributed
        exact (Level.on.inj (Option.some.inj attributed.2)).symm
    have lenient := passed contribution made
    rw [failing] at lenient
    cases lenient
  intro contribution made
  by_cases isOrigin : contribution.origin = name
  · obtain ⟨severity, isOn⟩ := (named.setLevel done).origin_is_on made
    rw [isOrigin, Registry.level?_setLevel done, if_pos rfl, Option.some.injEq] at isOn
    subst isOn
    rw [named.contributions_recast strict done] at made
    obtain ⟨original, madeBefore, rfl⟩ := List.mem_map.1 made
    exact absurd (original.origin_recast name severity ▸ isOrigin) (silent original madeBefore)
  · have others := named.contributions_of_others done translate graph
    have kept : contribution ∈ (contributions registry translate graph).filter fun contribution =>
        contribution.origin ≠ name := by
      rw [← others]
      exact List.mem_filter.2 ⟨made, decide_eq_true isOrigin⟩
    exact passed contribution (List.mem_of_mem_filter kept)

/-- A rule that is on contributes what its check says, remarks first, on each element. -/
theorem Registry.Named.filter_contributions (named : registry.Named) {rule : Rule}
    {severity : Severity} (registered : registry.get? name = some ⟨rule, .on severity⟩)
    {before after : List Element} {element : Element}
    (walked : graph.walk = before ++ element :: after)
    (different : (graph.walk.map Element.id).Nodup) :
    (contributions registry translate graph).filter (fun contribution =>
        contribution.origin = name ∧ contribution.visited = element.id) =
      ActiveRule.contributions ⟨rule, severity⟩ translate graph before.reverse element := by
  have byRule : (contributions registry translate graph).filter (fun contribution =>
      contribution.origin = name) =
        contributionsOn [⟨rule, severity⟩] translate graph [] graph.walk := by
    rw [contributions, filter_origin_contributionsOn fun origin => decide (origin = name),
      named.filter_active registered]
  rw [walked] at different
  calc (contributions registry translate graph).filter (fun contribution =>
          contribution.origin = name ∧ contribution.visited = element.id)
      = ((contributions registry translate graph).filter fun contribution =>
          contribution.origin = name).filter fun contribution =>
            contribution.visited = element.id := by
        simp only [List.filter_filter, Bool.decide_and, Bool.and_comm]
    _ = _ := by
        rw [byRule, walked, filter_visited_contributionsOn different]

end Change

/-- A rule that remarks on every element and then cannot make sense of it. -/
def Rule.brittle : Rule where
  name := "brittle"
  code := .disconnected
  check _ _ element := ⟨[⟨element.id, "Element is met"⟩], some (.malformed element.id "no shape")⟩

end Lint

open Lint

/-- Rules do not interfere, whatever registry was put together and whatever process was reached.
The report is made of contributions, each with the rule that it originates from. The level of a
rule can always be changed; then what originates from other rules stays the same on every element,
a change between two severities recasts the remarks of the rule and nothing else, and a process
that passes with the rule as an error still passes. Each contribution is the fault of a rule, which
is an error under the name and code of faults, or it has the name and the current severity of a
rule that is on. A rule that is on contributes on each element what it remarks there, followed by
its fault if it stops with one. -/
theorem Reached.rules_isolated {policy : Policy} {root : ElementId} {ledger : Ledger}
    (reached : Reached policy root ledger) {registry : Registry} (assembled : registry.Assembled)
    {name : String} {registration : Registration}
    (registered : registry.get? name = some registration) (translate : Translator) :
    run registry translate ledger.graph =
        .ofFindings ((contributions registry translate ledger.graph).map Contribution.finding) ∧
      (∀ element, (run registry translate ledger.graph).get element =
        ((contributions registry translate ledger.graph).filter fun contribution =>
          contribution.finding.element = element).map Contribution.finding) ∧
      (∀ level, ∃ changed, registry.setLevel name level = .ok changed ∧
        (∀ element, findingsOfOthers name changed translate ledger.graph element =
          findingsOfOthers name registry translate ledger.graph element) ∧
        (∀ first second, registry.level? name = some (.on first) → level = .on second →
          contributions changed translate ledger.graph =
              (contributions registry translate ledger.graph).map
                (Contribution.recast name second) ∧
            (run changed translate ledger.graph).groups.keys =
              (run registry translate ledger.graph).groups.keys) ∧
        (registry.level? name = some (.on .error) →
          (run registry translate ledger.graph).passed = true →
            (run changed translate ledger.graph).passed = true)) ∧
      (∀ contribution ∈ contributions registry translate ledger.graph,
        if contribution.isFault then
          contribution.finding.element = contribution.visited ∧
            contribution.finding.rule = "engine-error" ∧
            contribution.finding.code = .ruleFault ∧ contribution.finding.severity = .error
        else
          contribution.finding.rule = contribution.origin ∧
            registry.level? contribution.origin = some (.on contribution.finding.severity)) ∧
      ∀ severity, registration.level = .on severity → ∀ before element after,
        ledger.graph.walk = before ++ element :: after →
          ((contributions registry translate ledger.graph).filter fun contribution =>
            contribution.origin = name ∧ contribution.visited = element.id).map
              Contribution.finding =
            let verdict := registration.rule.check ledger.graph before.reverse element
            verdict.remarks.map (fun remark => ⟨remark.element, name, registration.rule.code,
                severity, translate remark.message⟩)
              ++ verdict.fault.toList.map fun fault =>
                ⟨element.id, "engine-error", .ruleFault, .error,
                  translate "Rule failed on this element" ++ " (" ++ name ++ "): "
                    ++ fault.message⟩ := by
  have named := assembled.named
  refine ⟨run_eq_ofFindings _ _ _, get_run _ _ _, fun level => ?_,
    fun _ => named.of_mem_contributions, ?_⟩
  · have done := Registry.setLevel_of_get? registered level
    refine ⟨_, done, named.findingsOfOthers_eq done _ _, ?_, fun strict passed =>
      named.passed_of_lowered strict done passed⟩
    rintro first second isOn rfl
    exact ⟨named.contributions_recast isOn done _ _, named.keys_run_recast isOn done⟩
  · rintro severity isOn before element after walked
    have different := reached.sound.wellFormed.nodup_walk_ids
    have sameName := named.name_eq registered
    obtain ⟨rule, level⟩ := registration
    subst isOn
    rw [named.filter_contributions registered walked different,
      ActiveRule.map_finding_contributions, ← sameName]
    rfl

/-- Switching off a rule that fails on every element takes away its remark and its fault, and
leaves what the other rules say about a task without flows. -/
theorem rules_isolated_of_brittle : ∃ ledger, Reached ⟨false, false⟩ ⟨"P"⟩ ledger ∧
    let registry := Registry.recommended.register Rule.brittle (.on .warn)
    ∃ changed, registry.setLevel "brittle" .off = .ok changed ∧
      findingsOfOthers "brittle" changed id ledger.graph ⟨"T"⟩ =
        findingsOfOthers "brittle" registry id ledger.graph ⟨"T"⟩ ∧
      (findingsOfOthers "brittle" registry id ledger.graph ⟨"T"⟩).map Finding.rule =
        ["label-required", "no-disconnected", "no-disconnected"] ∧
      (((contributions registry id ledger.graph).filter fun contribution =>
        contribution.origin = "brittle" ∧ contribution.visited = ⟨"T"⟩).map fun contribution =>
          (contribution.finding.rule, contribution.finding.severity)) =
        [("brittle", .warn), ("engine-error", .error)] := by
  let task : Node := .alone ⟨"T"⟩ (.task .user)
  let built := (Ledger.new ⟨"P"⟩).record (.addNode ⟨"P"⟩ task)
  have isBuilt : Reached ⟨false, false⟩ ⟨"P"⟩ built :=
    .edit .new (.fresh _ _ ⟨rfl, rfl, rfl, rfl, fun _ => ⟨rfl, rfl⟩⟩)
  have assembled := Registry.assembled_recommended.register Rule.brittle (.on .warn)
  have registered : (Registry.recommended.register Rule.brittle (.on .warn)).get? "brittle" =
      some ⟨Rule.brittle, .on .warn⟩ := by
    rw [Registry.register, Store.get?_insert, if_pos (show "brittle" = Rule.brittle.name from rfl)]
  obtain ⟨_, _, levels, _, checks⟩ := isBuilt.rules_isolated assembled registered id
  obtain ⟨changed, done, others, _, _⟩ := levels .off
  refine ⟨built, isBuilt, changed, done, others ⟨"T"⟩, by decide, ?_⟩
  have walked : built.graph.walk =
      [.node { Node.alone ⟨"P"⟩ .process with children := [⟨"T"⟩] }] ++
        [.node { task with parent := some ⟨"P"⟩ }] := by
    decide
  have onTask := congrArg (List.map fun finding => (finding.rule, finding.severity))
    (checks .warn rfl _ _ _ walked)
  rw [List.map_map] at onTask
  exact onTask

end BusinessProcess
