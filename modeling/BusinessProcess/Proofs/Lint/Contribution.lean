import BusinessProcess.Proofs.Lint.Registry
import BusinessProcess.Proofs.Lint.Report

/-!
# Contributions to a report

A finding names the rule that it is attributed to, and faults are attributed to the run itself, so
a report does not tell which rule brought a fault about. A contribution is a finding together with
the rule whose check made it and the element that was checked. The report of a run is made of the
findings of its contributions.
-/

namespace BusinessProcess.Lint

/-- A finding and where it comes from. -/
structure Contribution where
  /-- The name of the rule whose check made the finding. -/
  origin : String
  /-- The element that was checked. -/
  visited : ElementId
  /-- Whether the check stopped with the finding. -/
  isFault : Bool
  finding : Finding
deriving DecidableEq

/-- The contributions of a rule on an element, given the elements met before. -/
def ActiveRule.contributions (active : ActiveRule) (translate : Translator) (graph : Graph)
    (met : List Element) (element : Element) : List Contribution :=
  let verdict := active.rule.check graph met element
  verdict.remarks.map (fun remark =>
      ⟨active.rule.name, element.id, false, active.attribution.finding translate remark⟩)
    ++ verdict.fault.toList.map fun fault =>
      ⟨active.rule.name, element.id, true,
        Attribution.faultFinding active.rule.name translate element.id fault⟩

/-- The contributions of several rules on a sequence of elements, given the elements met before. -/
def contributionsOn (rules : List ActiveRule) (translate : Translator) (graph : Graph) :
    (met : List Element) → List Element → List Contribution
  | _, [] => []
  | met, element :: rest =>
      rules.flatMap (fun active => active.contributions translate graph met element)
        ++ contributionsOn rules translate graph (element :: met) rest

/-- The contributions to the report of a run. -/
def contributions (registry : Registry) (translate : Translator) (graph : Graph) :
    List Contribution :=
  contributionsOn (activeRules registry) translate graph [] graph.walk

section On

variable {active : ActiveRule} {rules : List ActiveRule} {translate : Translator} {graph : Graph}
  {met elements : List Element} {element : Element} {contribution : Contribution}

theorem ActiveRule.map_finding_contributions :
    (active.contributions translate graph met element).map Contribution.finding =
      active.findings translate graph met element := by
  simp only [ActiveRule.contributions, ActiveRule.findings, List.map_append, List.map_map]
  rfl

/-- The findings of a run are those of its contributions. -/
theorem map_finding_contributionsOn :
    (contributionsOn rules translate graph met elements).map Contribution.finding =
      findingsOn rules translate graph met elements := by
  induction elements generalizing met with
  | nil => rfl
  | cons element rest inductionHypothesis =>
      simp only [contributionsOn, findingsOn, List.map_append, List.map_flatMap,
        ActiveRule.map_finding_contributions, inductionHypothesis]

/-- What a rule contributes originates from it and from the element that it checks. -/
theorem ActiveRule.origin_of_mem_contributions
    (member : contribution ∈ active.contributions translate graph met element) :
    contribution.origin = active.rule.name ∧ contribution.visited = element.id := by
  rcases List.mem_append.1 member with isRemark | isFault
  · obtain ⟨_, _, rfl⟩ := List.mem_map.1 isRemark
    exact ⟨rfl, rfl⟩
  · obtain ⟨_, _, rfl⟩ := List.mem_map.1 isFault
    exact ⟨rfl, rfl⟩

/-- Each contribution is made by some rule on some element. -/
theorem exists_of_mem_contributionsOn
    (member : contribution ∈ contributionsOn rules translate graph met elements) :
    ∃ active ∈ rules, ∃ before, ∃ element ∈ elements,
      contribution ∈ active.contributions translate graph before element := by
  induction elements generalizing met with
  | nil => cases member
  | cons element rest inductionHypothesis =>
      rcases List.mem_append.1 member with here | later
      · obtain ⟨active, isActive, made⟩ := List.mem_flatMap.1 here
        exact ⟨active, isActive, met, element, List.mem_cons_self, made⟩
      · obtain ⟨active, isActive, before, other, isLater, made⟩ := inductionHypothesis later
        exact ⟨active, isActive, before, other, List.mem_cons_of_mem _ isLater, made⟩

/-- The contributions of some of the rules are made by these rules alone. -/
theorem filter_origin_contributionsOn (keeps : String → Bool) :
    (contributionsOn rules translate graph met elements).filter
        (fun contribution => keeps contribution.origin) =
      contributionsOn (rules.filter fun active => keeps active.rule.name) translate graph met
        elements := by
  have onElement : ∀ met element, (rules.flatMap fun active =>
      active.contributions translate graph met element).filter
        (fun contribution => keeps contribution.origin) =
      (rules.filter fun active => keeps active.rule.name).flatMap fun active =>
        active.contributions translate graph met element := by
    intro met element
    induction rules with
    | nil => rfl
    | cons active others inductionHypothesis =>
        have origin : ∀ contribution ∈ active.contributions translate graph met element,
            keeps contribution.origin = keeps active.rule.name := fun contribution made =>
          congrArg keeps (ActiveRule.origin_of_mem_contributions made).1
        rw [List.flatMap_cons, List.filter_append, inductionHypothesis, List.filter_cons]
        cases kept : keeps active.rule.name with
        | true =>
            rw [if_pos rfl, List.flatMap_cons,
              List.filter_eq_self.2 fun contribution made => (origin contribution made).trans kept]
        | false =>
            rw [if_neg Bool.false_ne_true, List.filter_eq_nil_iff.2 fun contribution made => by
              rw [origin contribution made, kept]; exact Bool.false_ne_true, List.nil_append]
  induction elements generalizing met with
  | nil => rfl
  | cons element rest inductionHypothesis =>
      rw [contributionsOn, List.filter_append, onElement, inductionHypothesis, contributionsOn]

/-- What is contributed on later elements depends on those met before them. -/
theorem contributionsOn_append (first second : List Element) :
    contributionsOn rules translate graph met (first ++ second) =
      contributionsOn rules translate graph met first ++
        contributionsOn rules translate graph (first.reverse ++ met) second := by
  induction first generalizing met with
  | nil => rfl
  | cons element rest inductionHypothesis =>
      rw [List.cons_append, contributionsOn, inductionHypothesis, contributionsOn,
        List.append_assoc, List.reverse_cons, List.append_assoc, List.singleton_append]

/-- On elements with other ids nothing is contributed from an element. -/
theorem filter_visited_eq_nil (apart : ∀ other ∈ elements, other.id ≠ element.id) :
    (contributionsOn rules translate graph met elements).filter
      (fun contribution => contribution.visited = element.id) = [] := by
  refine List.filter_eq_nil_iff.2 fun contribution made => ?_
  obtain ⟨_, _, _, other, isOther, madeThere⟩ := exists_of_mem_contributionsOn made
  simpa [(ActiveRule.origin_of_mem_contributions madeThere).2] using apart other isOther

/-- From an element that is met once each rule contributes what its check there says. -/
theorem filter_visited_contributionsOn {before after : List Element}
    (different : ((before ++ element :: after).map Element.id).Nodup) :
    (contributionsOn [active] translate graph [] (before ++ element :: after)).filter
        (fun contribution => contribution.visited = element.id) =
      active.contributions translate graph before.reverse element := by
  rw [List.map_append, List.map_cons, List.nodup_append] at different
  obtain ⟨_, differentLater, apart⟩ := different
  have notBefore : ∀ other ∈ before, other.id ≠ element.id := fun other isBefore =>
    apart _ (List.mem_map_of_mem isBefore) _ List.mem_cons_self
  have notAfter : ∀ other ∈ after, other.id ≠ element.id := fun other isAfter same =>
    (List.nodup_cons.1 differentLater).1 (same ▸ List.mem_map_of_mem isAfter)
  rw [contributionsOn_append, List.filter_append, filter_visited_eq_nil notBefore,
    contributionsOn, List.filter_append, filter_visited_eq_nil notAfter, List.flatMap_singleton,
    List.append_nil, List.nil_append, List.append_nil]
  exact List.filter_eq_self.2 fun contribution made =>
    decide_eq_true (ActiveRule.origin_of_mem_contributions made).2

/-! ## Severities -/

/-- The contribution with another severity, if it is a remark of the rule with the given name. -/
def Contribution.recast (name : String) (severity : Severity) (contribution : Contribution) :
    Contribution :=
  if contribution.origin = name ∧ contribution.isFault = false then
    { contribution with finding := { contribution.finding with severity := severity } }
  else contribution

/-- The severity of a rule shows in its remarks and nowhere else. -/
theorem contributionsOn_recast (name : String) (severity : Severity) :
    contributionsOn (rules.map (ActiveRule.recast name severity)) translate graph met elements =
      (contributionsOn rules translate graph met elements).map
        (Contribution.recast name severity) := by
  have each : ∀ (active : ActiveRule) met element,
      (active.recast name severity).contributions translate graph met element =
        (active.contributions translate graph met element).map
          (Contribution.recast name severity) := by
    intro active met element
    by_cases same : active.rule.name = name
    · simp only [ActiveRule.recast, same, if_true, ActiveRule.contributions, List.map_append,
        List.map_map]
      refine congrArg₂ (· ++ ·) (List.map_congr_left fun remark _ => ?_)
        (List.map_congr_left fun fault _ => ?_)
      · rw [Function.comp_apply, Contribution.recast, if_pos ⟨rfl, rfl⟩]
        rfl
      · rw [Function.comp_apply, Contribution.recast, if_neg fun isRemark =>
          absurd isRemark.2.symm Bool.false_ne_true]
    · simp only [ActiveRule.recast, same, if_false]
      refine ((List.map_congr_left fun contribution made => ?_).trans (List.map_id _)).symm
      rw [Contribution.recast, if_neg fun ofName => same
        ((ActiveRule.origin_of_mem_contributions made).1.symm.trans ofName.1)]
      rfl
  induction elements generalizing met with
  | nil => rfl
  | cons element rest inductionHypothesis =>
      simp only [contributionsOn, List.map_append, List.map_flatMap, List.flatMap_map, each,
        inductionHypothesis]

end On

/-- The report of a run is made of the findings of its contributions. -/
theorem run_eq_ofFindings (registry : Registry) (translate : Translator) (graph : Graph) :
    run registry translate graph =
      .ofFindings ((contributions registry translate graph).map Contribution.finding) := by
  rw [contributions, map_finding_contributionsOn, run]

end BusinessProcess.Lint
