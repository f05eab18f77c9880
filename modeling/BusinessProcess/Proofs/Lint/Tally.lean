import BusinessProcess.Proofs.Lint.Fault
import Mathlib.Algebra.BigOperators.Group.List.Basic
import Mathlib.Algebra.GroupWithZero.Nat

/-!
# How often a code is reported

Each built-in rule has a code of its own, so the findings with its code are its remarks. A run
checks every element once. How often it reports a code on an element is therefore the number of
checks, over all elements, in which the rule of the code remarks on the element.
-/

namespace BusinessProcess.Lint

/-- How often a report has a code on an element. -/
def Report.tally (report : Report) (code : Code) (id : ElementId) : Nat :=
  report.findings.countP fun finding => finding.code = code ∧ finding.element = id

/-- On each element of the process the rule remarks on the given elements, in this order. -/
def Rule.Marks (rule : Rule) (graph : Graph) (marked : Element → List ElementId) : Prop :=
  ∀ met, ∀ element ∈ graph.elements,
    (rule.check graph met element).remarks.map Remark.element = marked element

/-- Among entries with distinct keys, one of them stands between entries with other keys. -/
theorem exists_split_of_key {α κ : Type} {key : α → κ} {entries : List α} {entry : α}
    (distinct : (entries.map key).Nodup) (member : entry ∈ entries) :
    ∃ before after, entries = before ++ entry :: after ∧
      (∀ other ∈ before, key other ≠ key entry) ∧ ∀ other ∈ after, key other ≠ key entry := by
  obtain ⟨before, after, rfl⟩ := List.append_of_mem member
  rw [List.map_append, List.map_cons, List.nodup_append, List.nodup_cons] at distinct
  obtain ⟨_, ⟨notAfter, _⟩, apart⟩ := distinct
  refine ⟨before, after, rfl, fun other isBefore => ?_, fun other isAfter same => ?_⟩
  · exact apart _ (List.mem_map_of_mem isBefore) _ List.mem_cons_self
  · exact notAfter (same ▸ List.mem_map_of_mem isAfter)

/-- Among entries with distinct keys, one of them is the only one with its key. -/
theorem filter_of_key {α κ : Type} [DecidableEq κ] {key : α → κ} {entries : List α} {entry : α}
    (distinct : (entries.map key).Nodup) (member : entry ∈ entries) :
    entries.filter (key · = key entry) = [entry] := by
  obtain ⟨before, after, rfl, notBefore, notAfter⟩ := exists_split_of_key distinct member
  have noneBefore : before.filter (key · = key entry) = [] := by
    apply List.filter_eq_nil_iff.2
    intro other isBefore same
    exact notBefore other isBefore (of_decide_eq_true same)
  have noneAfter : after.filter (key · = key entry) = [] := by
    apply List.filter_eq_nil_iff.2
    intro other isAfter same
    exact notAfter other isAfter (of_decide_eq_true same)
  rw [List.filter_append, List.filter_cons, decide_eq_true rfl, if_pos rfl, noneBefore, noneAfter,
    List.nil_append]

/-- Among entries with distinct keys, a sum to which only the entries of one key add is what the
entry of this key adds. -/
theorem sum_map_of_key {α κ : Type} {key : α → κ} {weight : α → Nat} {entries : List α} {entry : α}
    (distinct : (entries.map key).Nodup) (member : entry ∈ entries)
    (others : ∀ other ∈ entries, key other ≠ key entry → weight other = 0) :
    (entries.map weight).sum = weight entry := by
  obtain ⟨before, after, rfl, notBefore, notAfter⟩ := exists_split_of_key distinct member
  have nothingBefore : (before.map weight).sum = 0 := by
    refine List.sum_eq_zero fun added isAdded => ?_
    obtain ⟨other, isBefore, rfl⟩ := List.mem_map.1 isAdded
    exact others other (List.mem_append_left _ isBefore) (notBefore other isBefore)
  have nothingAfter : (after.map weight).sum = 0 := by
    refine List.sum_eq_zero fun added isAdded => ?_
    obtain ⟨other, isAfter, rfl⟩ := List.mem_map.1 isAdded
    exact others other (List.mem_append_right _ (List.mem_cons_of_mem _ isAfter))
      (notAfter other isAfter)
  rw [List.map_append, List.map_cons, List.sum_append, List.sum_cons, nothingBefore, nothingAfter,
    Nat.zero_add, Nat.add_zero]

/-! ## Registries with all built-in rules -/

/-- The built-in rules and no others are registered, all of them on, each at any severity. -/
structure Registry.AllOn (registry : Registry) : Prop where
  assembled : registry.Assembled
  builtIn : registry.BuiltIn
  isOn : ∀ entry ∈ Registry.recommendedRules, ∃ severity,
    registry.get? entry.1.name = some ⟨entry.1, .on severity⟩

/-- The recommended registry has all built-in rules on. -/
theorem Registry.allOn_recommended : Registry.recommended.AllOn := by
  refine ⟨Registry.assembled_recommended, Registry.builtIn_recommended, ?_⟩
  simp only [Registry.recommendedRules, List.forall_mem_cons]
  exact ⟨⟨_, rfl⟩, ⟨_, rfl⟩, ⟨_, rfl⟩, ⟨_, rfl⟩, ⟨_, rfl⟩, ⟨_, rfl⟩, ⟨_, rfl⟩, ⟨_, rfl⟩, ⟨_, rfl⟩,
    ⟨_, rfl⟩, ⟨_, rfl⟩, ⟨_, rfl⟩, ⟨_, rfl⟩, ⟨_, rfl⟩, ⟨_, rfl⟩, ⟨_, rfl⟩,
    fun _ absent => absurd absent List.not_mem_nil⟩

/-- Changing the severity of a rule leaves all built-in rules on. -/
theorem Registry.AllOn.setLevel {registry changed : Registry} (allOn : registry.AllOn)
    {name : String} {severity : Severity}
    (done : registry.setLevel name (.on severity) = .ok changed) : changed.AllOn := by
  refine ⟨allOn.assembled.setLevel done, allOn.builtIn.setLevel done, fun entry known => ?_⟩
  obtain ⟨before, found⟩ := allOn.isOn entry known
  obtain ⟨registration, registered, rfl⟩ := Registry.exists_of_setLevel done
  rw [Store.get?_insert]
  split
  next same =>
    rw [← same, found] at registered
    obtain rfl := Option.some.inj registered
    exact ⟨severity, rfl⟩
  next => exact ⟨before, found⟩

/-- Built-in rules have the same code exactly if they have the same name. -/
theorem code_eq_iff : ∀ entry ∈ Registry.recommendedRules,
    ∀ other ∈ Registry.recommendedRules, other.1.code = entry.1.code ↔
      other.1.name = entry.1.name := by
  decide

/-! ## Counting findings -/

section Count

variable {active : ActiveRule} {translate : Translator} {graph : Graph} {met : List Element}
  {element : Element} {code : Code} {id : ElementId}

/-- A check reports the code of its rule on the elements that it remarks on. -/
theorem ActiveRule.countP_findings (same : active.rule.code = code)
    (noFault : code ≠ .ruleFault) :
    (active.findings translate graph met element).countP
        (fun finding => finding.code = code ∧ finding.element = id) =
      ((active.rule.check graph met element).remarks.map Remark.element).count id := by
  have notCounted : ((active.rule.check graph met element).fault.toList.map
      (Attribution.faultFinding active.rule.name translate element.id)).countP
        (fun finding => finding.code = code ∧ finding.element = id) = 0 := by
    refine List.countP_eq_zero.2 fun finding isFault counted => ?_
    obtain ⟨fault, _, rfl⟩ := List.mem_map.1 isFault
    exact noFault (of_decide_eq_true counted).1.symm
  rw [ActiveRule.findings, List.countP_append, notCounted, Nat.add_zero, List.countP_map,
    List.count, List.countP_map]
  refine List.countP_congr fun remark _ => ?_
  simp only [Function.comp_apply, ActiveRule.attribution, Attribution.finding, same, true_and,
    decide_eq_true_eq, beq_iff_eq]

/-- A check reports no code but that of its rule and that of faults. -/
theorem ActiveRule.countP_findings_of_ne (differs : active.rule.code ≠ code)
    (noFault : code ≠ .ruleFault) :
    (active.findings translate graph met element).countP
      (fun finding => finding.code = code ∧ finding.element = id) = 0 := by
  refine List.countP_eq_zero.2 fun finding found counted => ?_
  have sameCode := (of_decide_eq_true counted).1
  rcases List.mem_append.1 found with isRemark | isFault
  · obtain ⟨remark, _, rfl⟩ := List.mem_map.1 isRemark
    exact differs sameCode
  · obtain ⟨fault, _, rfl⟩ := List.mem_map.1 isFault
    exact noFault sameCode.symm

/-- Where one rule has a code, the findings with this code are counted by what the rule marks. -/
theorem countP_findingsOn {rules : List ActiveRule} {elements : List Element}
    {marked : Element → List ElementId} (isActive : active ∈ rules)
    (different : (rules.map fun other => other.rule.name).Nodup)
    (single : ∀ other ∈ rules, other.rule.code = active.rule.code →
      other.rule.name = active.rule.name)
    (noFault : active.rule.code ≠ .ruleFault) (marks : active.rule.Marks graph marked)
    (known : ∀ element ∈ elements, element ∈ graph.elements) :
    (findingsOn rules translate graph met elements).countP
        (fun finding => finding.code = active.rule.code ∧ finding.element = id) =
      (elements.map fun element => (marked element).count id).sum := by
  induction elements generalizing met with
  | nil => rfl
  | cons element rest inductionHypothesis =>
      have later := @inductionHypothesis (element :: met) fun other isLater =>
        known other (List.mem_cons_of_mem _ isLater)
      have here : (rules.flatMap fun other =>
          other.findings translate graph met element).countP
            (fun finding => finding.code = active.rule.code ∧ finding.element = id) =
          (marked element).count id := by
        rw [List.countP_flatMap, sum_map_of_key different isActive, Function.comp_apply,
          ActiveRule.countP_findings rfl noFault,
          marks met element (known element List.mem_cons_self)]
        exact fun other isOther differs =>
          ActiveRule.countP_findings_of_ne (mt (single other isOther) differs) noFault
      rw [findingsOn, List.countP_append, here, later, List.map_cons, List.sum_cons]

/-- A run of all built-in rules reports the code of a rule on an element as often as the rule marks
the element. -/
theorem Registry.AllOn.tally_run {registry : Registry} (allOn : registry.AllOn)
    {entry : Rule × Severity} (known : entry ∈ Registry.recommendedRules)
    (wellFormed : graph.WellFormed) {marked : Element → List ElementId}
    (marks : entry.1.Marks graph marked) (translate : Translator) (id : ElementId) :
    (run registry translate graph).tally entry.1.code id =
      (graph.elements.map fun element => (marked element).count id).sum := by
  obtain ⟨severity, registered⟩ := allOn.isOn entry known
  obtain ⟨_, _, _, _, all⟩ := wellFormed.exists_walk
  have single : ∀ other ∈ activeRules registry, other.rule.code = entry.1.code →
      other.rule.name = entry.1.name := by
    intro other isActive same
    obtain ⟨_, isBuiltIn⟩ := allOn.builtIn.exists_severity isActive
    exact (code_eq_iff entry known _ isBuiltIn).1 same
  rw [Report.tally, run, (Report.findings_ofFindings_perm _).countP_eq,
    ← (all.map fun element => (marked element).count id).sum_eq]
  exact countP_findingsOn (mem_activeRules registered) allOn.assembled.named.nodup_active single
    (recommended_ne_engine entry known).2 marks fun _ => Graph.mem_elements_of_walk

end Count

/-- A rule that remarks on some elements when it checks them, each once, is reported once on each
of these and nowhere else. -/
theorem Registry.AllOn.tally_of_self {registry : Registry} (allOn : registry.AllOn)
    {entry : Rule × Severity} (known : entry ∈ Registry.recommendedRules) {graph : Graph}
    (wellFormed : graph.WellFormed) {due : Element → Bool}
    (marks : entry.1.Marks graph fun element => if due element then [element.id] else [])
    (translate : Translator) :
    (∀ element ∈ graph.elements,
      (run registry translate graph).tally entry.1.code element.id =
        if due element then 1 else 0) ∧
      ∀ id ∉ graph.ids, (run registry translate graph).tally entry.1.code id = 0 := by
  have distinct : (graph.elements.map Element.id).Nodup := by
    rw [Graph.map_id_elements]
    exact wellFormed.distinct
  have elsewhere : ∀ (element : Element) (id : ElementId), element.id ≠ id →
      (if due element then [element.id] else []).count id = 0 := by
    intro element id differs
    rw [List.count_eq_zero]
    split <;> simp [Ne.symm differs]
  constructor
  · intro element member
    rw [allOn.tally_run known wellFormed marks,
      sum_map_of_key distinct member fun other _ differs => elsewhere other _ differs]
    split <;> simp
  · intro id absent
    rw [allOn.tally_run known wellFormed marks]
    refine List.sum_eq_zero fun added isAdded => ?_
    obtain ⟨element, member, rfl⟩ := List.mem_map.1 isAdded
    exact elsewhere element id fun same => absent (Graph.mem_ids.2 ⟨element, member, same⟩)

end BusinessProcess.Lint
