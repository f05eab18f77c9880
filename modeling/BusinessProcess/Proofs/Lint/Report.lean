import BusinessProcess.Lint.Report
import Mathlib.Data.List.Perm.Basic

/-!
# Reports of findings

A report made of a list of findings holds these and no others. It lists its groups in the order in
which their elements first come up, and each group keeps the findings on its element in their order.
-/

namespace BusinessProcess.Lint.Report

/-- Placing a finding in its group adds it to the findings and changes nothing else. -/
private theorem flatten_place_perm (finding : Finding)
    (entries : List (ElementId × List Finding)) :
    ((Store.place finding.element (fun group => group.getD [] ++ [finding]) entries).map
      Prod.snd).flatten.Perm (finding :: (entries.map Prod.snd).flatten) := by
  induction entries with
  | nil => exact .refl _
  | cons head rest inductionHypothesis =>
      obtain ⟨name, group⟩ := head
      by_cases same : name = finding.element
      · simp only [Store.place, same, if_true, List.map_cons, List.flatten_cons,
          Option.getD_some, List.append_assoc, List.singleton_append]
        exact List.perm_middle
      · simp only [Store.place, same, if_false, List.map_cons, List.flatten_cons]
        exact (inductionHypothesis.append_left group).trans List.perm_middle

/-- A report of findings holds these and no others. -/
theorem findings_ofFindings_perm (findings : List Finding) :
    (ofFindings findings).findings.Perm findings := by
  have grows : ∀ report : Report, (report.extend findings).findings.Perm
      (report.findings ++ findings) := by
    induction findings with
    | nil =>
        intro report
        rw [List.append_nil]
        exact .refl _
    | cons finding rest inductionHypothesis =>
        intro report
        have pushed : (report.push finding).findings.Perm (finding :: report.findings) :=
          flatten_place_perm finding report.groups.entries
        refine (inductionHypothesis (report.push finding)).trans ?_
        exact (pushed.append_right rest).trans List.perm_middle.symm
  exact grows empty

/-- A report passes exactly if none of its findings fails the process. -/
theorem passed_ofFindings_iff {findings : List Finding} :
    (ofFindings findings).passed = true ↔
      ∀ finding ∈ findings, finding.severity.isError = false := by
  simp only [passed, Bool.not_eq_true', List.any_eq_false, Bool.not_eq_true]
  exact forall_congr' fun finding =>
    imp_congr_left (findings_ofFindings_perm findings).mem_iff

/-- The findings on an element are those taken in, in their order. -/
theorem get_extend (report : Report) (findings : List Finding) (element : ElementId) :
    (report.extend findings).get element =
      report.get element ++ findings.filter fun finding => finding.element = element := by
  induction findings generalizing report with
  | nil => simp [extend]
  | cons finding rest inductionHypothesis =>
      rw [extend, List.foldl_cons, ← extend, inductionHypothesis, get_push]
      by_cases same : finding.element = element
      · rw [if_pos same.symm, List.filter_cons_of_pos (by simpa using same), List.append_assoc,
          List.singleton_append]
      · rw [if_neg (Ne.symm same), List.filter_cons_of_neg (by simpa using same)]

theorem get_ofFindings (findings : List Finding) (element : ElementId) :
    (ofFindings findings).get element = findings.filter fun finding => finding.element = element :=
  get_extend empty findings element

/-- Which groups there are and in which order goes by the elements alone. -/
theorem keys_extend_congr {first second : List Finding}
    (same : first.map Finding.element = second.map Finding.element) {left right : Report}
    (keys : left.groups.keys = right.groups.keys) :
    (left.extend first).groups.keys = (right.extend second).groups.keys := by
  induction first generalizing second left right with
  | nil =>
      obtain rfl := List.map_eq_nil_iff.1 same.symm
      exact keys
  | cons finding rest inductionHypothesis =>
      obtain ⟨other, others, rfl, sameHead, sameRest⟩ := List.map_eq_cons_iff.1 same.symm
      refine inductionHypothesis sameRest.symm ?_
      simp only [push, Store.keys_upsert, keys, sameHead]

theorem keys_ofFindings_congr {first second : List Finding}
    (same : first.map Finding.element = second.map Finding.element) :
    (ofFindings first).groups.keys = (ofFindings second).groups.keys :=
  keys_extend_congr same rfl

end BusinessProcess.Lint.Report
