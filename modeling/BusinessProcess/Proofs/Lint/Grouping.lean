import BusinessProcess.Proofs.Lint.Report
import BusinessProcess.Proofs.Store

/-!
# Reports as groupings

A report takes findings in, one at a time or several at once. Whichever way it is, the report is
the stable grouping of the findings by their elements: it holds them all, in groups that come in
the order of their first findings, and each group keeps the order in which its findings came in.
Findings on different elements can therefore come in either order; only the groups change places.
-/

namespace BusinessProcess.Lint.Report

/-- The reports that come of taking findings in, with all findings taken in so far. -/
inductive Gathered : List Finding → Report → Prop where
  | empty : Gathered [] .empty
  | push {findings : List Finding} {report : Report} (gathered : Gathered findings report)
      (finding : Finding) : Gathered (findings ++ [finding]) (report.push finding)
  | extend {findings : List Finding} {report : Report} (gathered : Gathered findings report)
      (more : List Finding) : Gathered (findings ++ more) (report.extend more)

/-- It makes no difference how the findings are taken in. -/
theorem Gathered.eq_ofFindings {findings : List Finding} {report : Report}
    (gathered : Gathered findings report) : report = ofFindings findings := by
  induction gathered with
  | empty => rfl
  | push _ finding inductionHypothesis =>
      rw [inductionHypothesis, ofFindings, ofFindings, extend_append]
      rfl
  | extend _ more inductionHypothesis =>
      rw [inductionHypothesis, ofFindings, ofFindings, extend_append]

/-! ## Groups -/

/-- The findings are taken in by placing each in the group of its element. -/
theorem groups_ofFindings (findings : List Finding) :
    (ofFindings findings).groups = findings.foldl (fun groups finding =>
      groups.upsert finding.element fun group => group.getD [] ++ [finding]) .empty :=
  (List.foldl_hom groups fun _ _ => rfl).symm

/-- The groups come in the order in which their elements first come up. -/
theorem keys_ofFindings (findings : List Finding) :
    (ofFindings findings).groups.keys = (findings.map Finding.element).eraseDups := by
  rw [groups_ofFindings]
  exact Store.keys_foldl_upsert Finding.element
    (fun finding group => group.getD [] ++ [finding]) findings

/-- The groups of a report hold what was found on their elements, in its order. -/
theorem entries_ofFindings (findings : List Finding) :
    (ofFindings findings).groups.entries = (findings.map Finding.element).eraseDups.map
      fun element => (element, findings.filter fun finding => finding.element = element) := by
  rw [Store.entries_eq_map_keys _ [], keys_ofFindings]
  refine List.map_congr_left fun element _ => ?_
  rw [← get_ofFindings]
  rfl

/-- There is a group exactly for the elements that something was found on. -/
theorem mem_keys_ofFindings {findings : List Finding} {element : ElementId} :
    element ∈ (ofFindings findings).groups.keys ↔
      (findings.filter fun finding => finding.element = element) ≠ [] := by
  simp [keys_ofFindings, List.filter_eq_nil_iff]

/-- Where the same is found on each element, in the same order, there are the same groups. -/
theorem entries_ofFindings_perm {first second : List Finding}
    (same : ∀ element, first.filter (fun finding => finding.element = element) =
      second.filter fun finding => finding.element = element) :
    (ofFindings first).groups.entries.Perm (ofFindings second).groups.entries := by
  have keys : (ofFindings first).groups.keys.Perm (ofFindings second).groups.keys := by
    apply (List.perm_ext_iff_of_nodup (Store.distinct _) (Store.distinct _)).2
    intro element
    refine mem_keys_ofFindings.trans (.trans ?_ mem_keys_ofFindings.symm)
    rw [same]
  rw [entries_ofFindings, entries_ofFindings, ← keys_ofFindings, ← keys_ofFindings]
  simp only [same]
  exact keys.map _

/-- Findings on different elements that come one after the other can change places. -/
theorem filter_swap {first second : Finding} (differ : first.element ≠ second.element)
    (before after : List Finding) (element : ElementId) :
    (before ++ second :: first :: after).filter (fun finding => finding.element = element) =
      (before ++ first :: second :: after).filter fun finding => finding.element = element := by
  rw [List.filter_append, List.filter_append]
  by_cases onFirst : first.element = element
  · have notOnSecond : second.element ≠ element := fun onSecond =>
      differ (onFirst.trans onSecond.symm)
    simp [onFirst, notOnSecond]
  · simp [List.filter_cons, onFirst]

/-! ## Counts -/

theorem size_ofFindings (findings : List Finding) :
    (ofFindings findings).size = findings.length := by
  rw [size_eq_length_findings, (findings_ofFindings_perm findings).length_eq]

/-- Every finding is an error or an advice. -/
theorem size_eq_errorCount_add_warningCount (report : Report) :
    report.size = report.errorCount + report.warningCount := by
  have opposite : ∀ severity : Severity, severity.isWarning = !severity.isError := by
    intro severity
    cases severity <;> rfl
  rw [size_eq_length_findings, errorCount, warningCount,
    List.length_eq_countP_add_countP fun finding => finding.severity.isError]
  simp only [opposite, Bool.not_eq_true, Bool.decide_eq_false]

theorem passed_iff_errorCount (report : Report) :
    report.passed = true ↔ report.errorCount = 0 := by
  rw [passed, errorCount, List.countP_eq_zero, Bool.not_eq_true', List.any_eq_false]

/-- A report without groups has no findings, for no group is empty. -/
theorem isEmpty_ofFindings_iff {findings : List Finding} :
    (ofFindings findings).isEmpty = true ↔ findings = [] := by
  rw [isEmpty, Store.isEmpty, List.isEmpty_iff, entries_ofFindings, List.map_eq_nil_iff,
    List.eq_nil_iff_forall_not_mem]
  simp [List.eq_nil_iff_forall_not_mem]

/-! ## The grouping -/

/-- The report groups the findings taken in. -/
structure Regroups (report : Report) (taken : List Finding) : Prop where
  /-- There is one group for each element, in the order in which the elements first come up, with
  the findings on the element in their order. -/
  groups : report.groups.entries = (taken.map Finding.element).eraseDups.map fun element =>
    (element, taken.filter fun finding => finding.element = element)
  distinct : (report.groups.entries.map Prod.fst).Nodup
  filled : ∀ entry ∈ report.groups.entries, entry.2 ≠ []
  get : ∀ element, report.get element = taken.filter fun finding => finding.element = element
  flattened : report.findings = (report.groups.entries.map Prod.snd).flatten
  complete : report.findings.Perm taken
  size : report.size = taken.length
  counts : report.size = report.errorCount + report.warningCount
  isEmpty : report.isEmpty = true ↔ report.size = 0
  passed : report.passed = true ↔ report.errorCount = 0

/-- However often an element comes up, its findings end up in one group. -/
theorem regroups_ofFindings (taken : List Finding) : (ofFindings taken).Regroups taken where
  groups := entries_ofFindings taken
  distinct := (ofFindings taken).groups.distinct
  filled := by
    rw [entries_ofFindings, ← keys_ofFindings]
    rintro _ listed
    obtain ⟨element, isKey, rfl⟩ := List.mem_map.1 listed
    exact mem_keys_ofFindings.1 isKey
  get := get_ofFindings taken
  flattened := rfl
  complete := findings_ofFindings_perm taken
  size := size_ofFindings taken
  counts := size_eq_errorCount_add_warningCount _
  isEmpty := by rw [isEmpty_ofFindings_iff, size_ofFindings, List.length_eq_zero_iff]
  passed := passed_iff_errorCount _

/-- A report groups the findings that it has taken in, stably and completely. Taking in more
findings gives the report of all of them, in whatever portions these are taken in; and if two
findings on different elements come in the other order, there are the same groups. -/
theorem Gathered.regroups {taken : List Finding} {report : Report}
    (gathered : Gathered taken report) :
    report.Regroups taken ∧
    (∀ more whole, Gathered (taken ++ more) whole → report.extend more = whole) ∧
    ∀ before first second after, taken = before ++ first :: second :: after →
      first.element ≠ second.element → ∀ swapped,
        Gathered (before ++ second :: first :: after) swapped →
          swapped.groups.entries.Perm report.groups.entries := by
  refine ⟨?_, fun more whole gatheredWhole => ?_, ?_⟩
  · rw [gathered.eq_ofFindings]
    exact regroups_ofFindings taken
  · rw [(gathered.extend more).eq_ofFindings, gatheredWhole.eq_ofFindings]
  · rintro before first second after rfl differ swapped gatheredSwapped
    rw [gathered.eq_ofFindings, gatheredSwapped.eq_ofFindings]
    exact entries_ofFindings_perm (filter_swap differ before after)

/-- Two findings on a task with one on an event between them come in two groups. The order of the
groups is another one if the event comes first, and the groups are the same. -/
theorem regroups_of_interleaved :
    let onTask : Finding := ⟨⟨"T"⟩, "label-required", .missingLabel, .error, "unnamed"⟩
    let onEvent : Finding := ⟨⟨"E"⟩, "fake-join", .fakeJoin, .warn, "joins"⟩
    let again : Finding := ⟨⟨"T"⟩, "no-disconnected", .disconnected, .warning, "alone"⟩
    let report := (empty.push onTask).extend [onEvent, again]
    report.groups.entries = [(⟨"T"⟩, [onTask, again]), (⟨"E"⟩, [onEvent])] ∧
      report.findings.Perm [onTask, onEvent, again] ∧ report.passed = false ∧
      (ofFindings [onEvent, onTask, again]).groups.keys = [⟨"E"⟩, ⟨"T"⟩] ∧
      (ofFindings [onEvent, onTask, again]).groups.entries.Perm report.groups.entries := by
  intro onTask onEvent again report
  have gathered : Gathered [onTask, onEvent, again] report :=
    (Gathered.empty.push onTask).extend [onEvent, again]
  obtain ⟨regroups, -, swap⟩ := gathered.regroups
  refine ⟨regroups.groups, regroups.complete, by decide, by decide, ?_⟩
  exact swap [] onTask onEvent [again] rfl (by decide) _
    (Gathered.empty.extend [onEvent, onTask, again])

end BusinessProcess.Lint.Report
