import BusinessProcess.Lint.RequiredFields
import BusinessProcess.Proofs.Lint.Contribution
import Mathlib.Data.List.Forall2

/-!
# Translated reports

Messages are translated as they enter a report, so a translator decides how the findings read and
nothing else: which findings there are, where they stand and how they count is the same for all
translators. Of a fault only the opening words are translated.
-/

namespace BusinessProcess.Lint

/-! ## Corresponding reports -/

section Correspondence

variable {relation : Finding → Finding → Prop}

/-- Two groups are on the same element and their findings are related one by one. -/
def Report.GroupsCorrespond (relation : Finding → Finding → Prop)
    (plain shown : ElementId × List Finding) : Prop :=
  shown.1 = plain.1 ∧ List.Forall₂ relation plain.2 shown.2

/-- Two reports have the same groups in the same order, and the findings of each group are related
one by one. -/
def Report.Corresponds (relation : Finding → Finding → Prop) (plain shown : Report) : Prop :=
  List.Forall₂ (GroupsCorrespond relation) plain.groups.entries shown.groups.entries

namespace Report.Corresponds

/-- Related findings on the same element take corresponding places. -/
private theorem place {first second : Finding} (related : relation first second)
    (same : second.element = first.element) {plain shown : List (ElementId × List Finding)}
    (corresponds : List.Forall₂ (GroupsCorrespond relation) plain shown) :
    List.Forall₂ (GroupsCorrespond relation)
      (Store.place first.element (fun group => group.getD [] ++ [first]) plain)
      (Store.place second.element (fun group => group.getD [] ++ [second]) shown) := by
  induction corresponds with
  | nil => exact .cons ⟨same, .cons related .nil⟩ .nil
  | @cons before after plain shown groups corresponds inductionHypothesis =>
      obtain ⟨sameElement, findings⟩ := groups
      simp only [Store.place, sameElement, same]
      split
      · exact .cons ⟨rfl, List.rel_append findings (.cons related .nil)⟩ corresponds
      · exact .cons ⟨rfl, findings⟩ (same ▸ inductionHypothesis)

/-- Findings that are related one by one make corresponding reports. -/
theorem ofFindings (onElement : ∀ plain shown, relation plain shown → shown.element = plain.element)
    {first second : List Finding} (related : List.Forall₂ relation first second) :
    Corresponds relation (.ofFindings first) (.ofFindings second) := by
  have grows : ∀ left right : Report, Corresponds relation left right →
      Corresponds relation (left.extend first) (right.extend second) := by
    induction related with
    | nil => exact fun _ _ corresponds => corresponds
    | cons head _ inductionHypothesis =>
        intro left right corresponds
        exact inductionHypothesis (left.push _) (right.push _)
          (place head (onElement _ _ head) corresponds)
  exact grows .empty .empty .nil

variable {plain shown : Report}

theorem mono {other : Finding → Finding → Prop}
    (weaker : ∀ plain shown, relation plain shown → other plain shown)
    (corresponds : Corresponds relation plain shown) : Corresponds other plain shown :=
  corresponds.imp fun _ _ groups => ⟨groups.1, groups.2.imp weaker⟩

theorem keys_eq (corresponds : Corresponds relation plain shown) :
    shown.groups.keys = plain.groups.keys := by
  refine List.forall₂_eq_eq_eq ▸ ?_
  refine List.forall₂_map_left_iff.2 (List.forall₂_map_right_iff.2 ?_)
  exact corresponds.flip.imp fun _ _ groups => groups.1

/-- Corresponding reports list related findings, group by group. -/
theorem findings (corresponds : Corresponds relation plain shown) :
    List.Forall₂ relation plain.findings shown.findings :=
  List.rel_flatten (List.rel_map (fun _ _ groups => groups.2) corresponds)

/-- Corresponding reports have equally many findings of a kind that the relation keeps. -/
theorem countP_eq (corresponds : Corresponds relation plain shown) {counted : Finding → Bool}
    (keeps : ∀ plain shown, relation plain shown → counted shown = counted plain) :
    shown.findings.countP counted = plain.findings.countP counted := by
  rw [List.countP_eq_length_filter, List.countP_eq_length_filter]
  exact (List.rel_filter (fun first second related => by simp only [keeps first second related])
    corresponds.findings).length_eq.symm

end Report.Corresponds

end Correspondence

/-! ## Other words -/

/-- Two findings differ in their messages at most. -/
structure Finding.Reworded (plain shown : Finding) : Prop where
  element : shown.element = plain.element
  rule : shown.rule = plain.rule
  code : shown.code = plain.code
  severity : shown.severity = plain.severity

/-- All that a report tells apart from its messages. -/
structure Report.SameCounts (plain shown : Report) : Prop where
  passed : shown.passed = plain.passed
  errorCount : shown.errorCount = plain.errorCount
  warningCount : shown.warningCount = plain.warningCount
  size : shown.size = plain.size
  isEmpty : shown.isEmpty = plain.isEmpty
  byRule : ∀ rule, (shown.byRule rule).length = (plain.byRule rule).length

/-- A report passes exactly if it counts no errors. -/
theorem Report.passed_eq_decide (report : Report) :
    report.passed = decide (report.errorCount = 0) := by
  rw [Bool.eq_iff_iff, decide_eq_true_iff, passed, errorCount, List.countP_eq_zero,
    Bool.not_eq_true', List.any_eq_false]

/-- No count looks at messages. -/
theorem Report.Corresponds.sameCounts {plain shown : Report}
    (corresponds : Corresponds Finding.Reworded plain shown) : SameCounts plain shown := by
  have errors : shown.errorCount = plain.errorCount :=
    corresponds.countP_eq fun _ _ reworded => congrArg Severity.isError reworded.severity
  refine ⟨?_, errors, ?_, ?_, ?_, fun rule => ?_⟩
  · rw [passed_eq_decide, passed_eq_decide, errors]
  · exact corresponds.countP_eq fun _ _ reworded => congrArg Severity.isWarning reworded.severity
  · rw [size_eq_length_findings, size_eq_length_findings, corresponds.findings.length_eq]
  · have lengths := List.Forall₂.length_eq corresponds
    rw [isEmpty, Store.isEmpty, isEmpty, Store.isEmpty, Bool.eq_iff_iff,
      List.isEmpty_iff_length_eq_zero, List.isEmpty_iff_length_eq_zero, lengths]
  · rw [byRule, byRule, ← List.countP_eq_length_filter, ← List.countP_eq_length_filter]
    exact corresponds.countP_eq fun _ _ reworded => by rw [reworded.rule]

/-! ## Runs -/

/-- A contribution as it is made with no translation and as it is made with a translator. The
message of a remark is translated as a whole. Of the message of a fault the opening is translated
and the rest, which names the rule and the reason, is not. -/
inductive Contribution.Translated (translate : Translator) : Contribution → Contribution → Prop
  | remark (origin : String) (visited element : ElementId) (code : Code) (severity : Severity)
      (message : String) :
      Translated translate
        ⟨origin, visited, false, ⟨element, origin, code, severity, message⟩⟩
        ⟨origin, visited, false, ⟨element, origin, code, severity, translate message⟩⟩
  | fault (origin : String) (visited : ElementId) (reason : String) :
      Translated translate
        ⟨origin, visited, true, ⟨visited, "engine-error", .ruleFault, .error,
          "Rule failed on this element" ++ " (" ++ origin ++ "): " ++ reason⟩⟩
        ⟨origin, visited, true, ⟨visited, "engine-error", .ruleFault, .error,
          translate "Rule failed on this element" ++ " (" ++ origin ++ "): " ++ reason⟩⟩

namespace Contribution.Translated

variable {translate : Translator} {plain shown : Contribution}

theorem reworded (translated : Translated translate plain shown) :
    plain.finding.Reworded shown.finding := by
  cases translated <;> exact ⟨rfl, rfl, rfl, rfl⟩

end Contribution.Translated

/-- The contributions to the group of an element. -/
def contributionsTo (registry : Registry) (translate : Translator) (graph : Graph)
    (element : ElementId) : List Contribution :=
  (contributions registry translate graph).filter fun contribution =>
    contribution.finding.element = element

/-- The group of an element is made of the contributions to it. -/
theorem get_run_eq (registry : Registry) (translate : Translator) (graph : Graph)
    (element : ElementId) :
    (run registry translate graph).get element =
      (contributionsTo registry translate graph element).map Contribution.finding := by
  rw [run_eq_ofFindings, Report.get_ofFindings, contributionsTo, List.filter_map]
  rfl

section Run

variable {translate : Translator} {graph : Graph}

/-- A rule contributes the same on an element, in other words. -/
theorem ActiveRule.contributions_translated (active : ActiveRule) (met : List Element)
    (element : Element) :
    List.Forall₂ (Contribution.Translated translate)
      (active.contributions id graph met element)
      (active.contributions translate graph met element) := by
  refine List.rel_append ?_ ?_
  · refine List.forall₂_map_left_iff.2 (List.forall₂_map_right_iff.2 ?_)
    exact List.forall₂_same.2 fun remark _ => .remark ..
  · refine List.forall₂_map_left_iff.2 (List.forall₂_map_right_iff.2 ?_)
    exact List.forall₂_same.2 fun fault _ => .fault ..

/-- A run contributes the same on its elements, in other words. -/
theorem contributionsOn_translated (rules : List ActiveRule) (met elements : List Element) :
    List.Forall₂ (Contribution.Translated translate)
      (contributionsOn rules id graph met elements)
      (contributionsOn rules translate graph met elements) := by
  induction elements generalizing met with
  | nil => exact .nil
  | cons element rest inductionHypothesis =>
      refine List.rel_append (List.rel_flatten ?_) (inductionHypothesis (element :: met))
      refine List.forall₂_map_left_iff.2 (List.forall₂_map_right_iff.2 ?_)
      exact List.forall₂_same.2 fun active _ => active.contributions_translated met element

theorem run_corresponds (registry : Registry) (translate : Translator) (graph : Graph) :
    Report.Corresponds Finding.Reworded (run registry id graph) (run registry translate graph) := by
  rw [run_eq_ofFindings, run_eq_ofFindings]
  refine .ofFindings (fun _ _ reworded => reworded.element) ?_
  refine List.forall₂_map_left_iff.2 (List.forall₂_map_right_iff.2 ?_)
  exact (contributionsOn_translated _ _ _).imp fun _ _ translated => translated.reworded

theorem contributionsTo_translated (registry : Registry) (element : ElementId) :
    List.Forall₂ (Contribution.Translated translate)
      (contributionsTo registry id graph element)
      (contributionsTo registry translate graph element) := by
  exact List.rel_filter (fun plain shown translated => by
    simp only [translated.reworded.element]) (contributionsOn_translated _ _ _)

end Run

/-! ## Required fields -/

/-- The finding with its message translated. -/
def Finding.translated (translate : Translator) (finding : Finding) : Finding :=
  { finding with message := translate finding.message }

namespace RequiredFields

theorem findings_translated (translate : Translator) (task : Node) :
    findings translate task = (findings id task).map (Finding.translated translate) := by
  rw [findings, findings, List.map_map]
  rfl

/-- Every message of a check is translated as a whole. -/
theorem check_corresponds (translate : Translator) (graph : Graph) :
    Report.Corresponds (fun plain shown => shown = plain.translated translate)
      (check id graph) (check translate graph) := by
  have onElement : ∀ plain shown : Finding, shown = plain.translated translate →
      shown.element = plain.element := fun _ _ same => same ▸ rfl
  refine .ofFindings onElement (List.rel_flatten ?_)
  refine List.forall₂_map_left_iff.2 (List.forall₂_map_right_iff.2 ?_)
  refine List.forall₂_same.2 fun task _ => ?_
  rw [findings_translated translate]
  exact List.forall₂_map_right_iff.2 (List.forall₂_same.2 fun _ _ => rfl)

end RequiredFields

theorem Finding.reworded_translated (translate : Translator) (finding : Finding) :
    finding.Reworded (finding.translated translate) :=
  ⟨rfl, rfl, rfl, rfl⟩

/-- The reports made with a translator and without have the same groups in the same order, pass or
fail alike and count the same. In each group the findings come from the same contributions: a
remark reads as the translator turns its message, a fault as it turns the opening words, with the
same rule and reason behind them. The check of required fields reads as the translator turns each of
its messages. -/
theorem translation_rewrites_messages (registry : Registry) (translate : Translator)
    (graph : Graph) :
    (run registry translate graph).groups.keys = (run registry id graph).groups.keys ∧
      (∀ element,
        (run registry id graph).get element =
            (contributionsTo registry id graph element).map Contribution.finding ∧
          (run registry translate graph).get element =
            (contributionsTo registry translate graph element).map Contribution.finding ∧
          List.Forall₂ (Contribution.Translated translate)
            (contributionsTo registry id graph element)
            (contributionsTo registry translate graph element)) ∧
      Report.SameCounts (run registry id graph) (run registry translate graph) ∧
      Report.Corresponds (fun plain shown => shown = plain.translated translate)
        (RequiredFields.check id graph) (RequiredFields.check translate graph) ∧
      Report.SameCounts (RequiredFields.check id graph) (RequiredFields.check translate graph) := by
  have corresponds := run_corresponds registry translate graph
  have checkCorresponds := RequiredFields.check_corresponds translate graph
  refine ⟨corresponds.keys_eq, fun element => ⟨?_, ?_, ?_⟩, corresponds.sameCounts,
    checkCorresponds, ?_⟩
  · exact get_run_eq registry id graph element
  · exact get_run_eq registry translate graph element
  · exact contributionsTo_translated registry element
  · refine Report.Corresponds.sameCounts (checkCorresponds.mono fun plain shown same => ?_)
    exact same ▸ plain.reworded_translated translate

end BusinessProcess.Lint
