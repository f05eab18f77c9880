import BusinessProcess.Proofs.Lint.Tally

/-!
# What a rule says in a report

The remarks of a rule on a process are those of its checks, in the order of the walk. A report says
about an element in the name of the rule exactly what the rule remarks on it, translated, whatever
other rules take part. Where only the built-in rules do, the same is said under the code of the
rule.
-/

namespace BusinessProcess.Lint

/-- What a report says about an element in the name of a rule. -/
def Report.messagesOf (report : Report) (rule : String) (id : ElementId) : List String :=
  ((report.get id).filter (·.rule = rule)).map Finding.message

/-- What a report says about an element under a code. -/
def Report.messagesWith (report : Report) (code : Code) (id : ElementId) : List String :=
  ((report.get id).filter (·.code = code)).map Finding.message

/-- All that a rule remarks on a process, in the order of the walk. -/
def Rule.remarks (rule : Rule) (graph : Graph) : List Remark :=
  (rule.verdicts graph [] graph.walk).flatMap Verdict.remarks

/-- What is remarked about an element. -/
def messagesAbout (remarks : List Remark) (id : ElementId) : List String :=
  (remarks.filter (·.element = id)).map Remark.message

@[simp] theorem messagesAbout_nil (id : ElementId) : messagesAbout [] id = [] :=
  rfl

@[simp] theorem messagesAbout_append (first second : List Remark) (id : ElementId) :
    messagesAbout (first ++ second) id = messagesAbout first id ++ messagesAbout second id := by
  simp only [messagesAbout, List.filter_append, List.map_append]

@[simp] theorem messagesAbout_singleton (element id : ElementId) (message : String) :
    messagesAbout [⟨element, message⟩] id = if element = id then [message] else [] := by
  unfold messagesAbout
  by_cases same : element = id <;> simp [same]

/-- Among entries with distinct keys, what they say together is what one of them says if the others
say nothing. -/
theorem flatMap_of_key {α β κ : Type} {key : α → κ} {part : α → List β} {entries : List α}
    {entry : α} (distinct : (entries.map key).Nodup) (member : entry ∈ entries)
    (others : ∀ other ∈ entries, key other ≠ key entry → part other = []) :
    entries.flatMap part = part entry := by
  obtain ⟨before, after, rfl, notBefore, notAfter⟩ := exists_split_of_key distinct member
  have nothingBefore : before.flatMap part = [] := by
    apply List.flatMap_eq_nil_iff.2
    intro other isBefore
    exact others other (List.mem_append_left _ isBefore) (notBefore other isBefore)
  have nothingAfter : after.flatMap part = [] := by
    apply List.flatMap_eq_nil_iff.2
    intro other isAfter
    exact others other (List.mem_append_right _ (List.mem_cons_of_mem _ isAfter))
      (notAfter other isAfter)
  rw [List.flatMap_append, List.flatMap_cons, nothingBefore, nothingAfter, List.nil_append,
    List.append_nil]

/-! ## Rules about nodes -/

namespace Rule

/-- About each node of a process the rule says these messages, and about nothing else does it say
anything. -/
structure Tells (rule : Rule) (graph : Graph) (told : Node → List String) : Prop where
  ofNode : ∀ node ∈ graph.nodes, messagesAbout (rule.remarks graph) node.id = told node
  ofNothingElse : ∀ id, (∀ node ∈ graph.nodes, node.id ≠ id) →
    messagesAbout (rule.remarks graph) id = []

section NodeCheck

variable {name : String} {code : Code} {check : Graph → Node → List Remark} {graph : Graph}

/-- A rule about nodes says about an element what it says of the nodes of the walk, one by one. -/
theorem messagesAbout_verdicts_ofNodeCheck (met elements : List Element) (id : ElementId) :
    messagesAbout (((ofNodeCheck name code check).verdicts graph met elements).flatMap
      Verdict.remarks) id = elements.flatMap fun
        | .node node => messagesAbout (check graph node) id
        | .flow _ => [] := by
  induction elements generalizing met with
  | nil => rfl
  | cons element rest inductionHypothesis =>
      rw [verdicts, List.flatMap_cons, messagesAbout_append, inductionHypothesis,
        List.flatMap_cons]
      cases element <;> rfl

variable (wellFormed : graph.WellFormed) {id : ElementId}
include wellFormed

/-- If only one node gives rise to remarks on an element, these are all that a rule makes on it. -/
theorem messagesAbout_ofNodeCheck {node : Node} (present : node ∈ graph.nodes)
    (others : ∀ other ∈ graph.nodes, other.id ≠ node.id →
      messagesAbout (check graph other) id = []) :
    messagesAbout ((ofNodeCheck name code check).remarks graph) id =
      messagesAbout (check graph node) id := by
  obtain ⟨_, _, _, _, all⟩ := wellFormed.exists_walk
  rw [remarks, messagesAbout_verdicts_ofNodeCheck,
    flatMap_of_key wellFormed.nodup_walk_ids
      (all.mem_iff.2 (Graph.node_mem_elements.2 present))]
  intro other isMet differs
  cases other with
  | flow _ => rfl
  | node other => exact others other (Graph.node_mem_elements.1 (all.mem_iff.1 isMet)) differs

/-- If no node gives rise to a remark on an element, a rule makes none on it. -/
theorem messagesAbout_ofNodeCheck_eq_nil
    (nothing : ∀ node ∈ graph.nodes, messagesAbout (check graph node) id = []) :
    messagesAbout ((ofNodeCheck name code check).remarks graph) id = [] := by
  obtain ⟨_, _, _, _, all⟩ := wellFormed.exists_walk
  rw [remarks, messagesAbout_verdicts_ofNodeCheck, List.flatMap_eq_nil_iff]
  intro element isMet
  cases element with
  | flow _ => rfl
  | node node => exact nothing node (Graph.node_mem_elements.1 (all.mem_iff.1 isMet))

/-- A rule that remarks on a node only when it looks at this node says about it what it remarks
then. -/
theorem tells_ofNodeCheck
    (own : ∀ node ∈ graph.nodes, ∀ remark ∈ check graph node, remark.element = node.id) :
    (ofNodeCheck name code check).Tells graph fun node =>
      (check graph node).map Remark.message := by
  have elsewhere : ∀ other ∈ graph.nodes, ∀ id, other.id ≠ id →
      messagesAbout (check graph other) id = [] := by
    intro other isOther id differs
    rw [messagesAbout, List.filter_eq_nil_iff.2, List.map_nil]
    intro remark made isAbout
    exact differs ((own other isOther remark made).symm.trans (of_decide_eq_true isAbout))
  constructor
  · intro node present
    rw [messagesAbout_ofNodeCheck wellFormed present fun other isOther differs =>
      elsewhere other isOther node.id differs, messagesAbout, List.filter_eq_self.2]
    intro remark made
    exact decide_eq_true (own node present remark made)
  · intro id absent
    apply messagesAbout_ofNodeCheck_eq_nil wellFormed
    intro node present
    exact elsewhere node present id (absent node present)

end NodeCheck

end Rule

section Run

variable {rule : Rule} {severity : Severity} {translate : Translator} {graph : Graph}
  {met elements : List Element} {finding : Finding}

/-- Each finding is made by some rule. -/
theorem exists_of_mem_findingsOn {rules : List ActiveRule}
    (member : finding ∈ findingsOn rules translate graph met elements) :
    ∃ active ∈ rules, (finding.rule = active.rule.name ∧ finding.code = active.rule.code) ∨
      (finding.rule = Attribution.engine.rule ∧ finding.code = Attribution.engine.code) := by
  induction elements generalizing met with
  | nil => cases member
  | cons element rest inductionHypothesis =>
      rcases List.mem_append.1 member with here | later
      · obtain ⟨active, isActive, made⟩ := List.mem_flatMap.1 here
        exact ⟨active, isActive, active.attributed_of_mem_findings made⟩
      · exact inductionHypothesis later

/-- Under the name of a rule are found its own remarks. -/
theorem filter_rule_findingsOn {rules : List ActiveRule}
    (isActive : ⟨rule, severity⟩ ∈ rules)
    (different : (rules.map fun active => active.rule.name).Nodup)
    (notEngine : rule.name ≠ Attribution.engine.rule) :
    (findingsOn rules translate graph met elements).filter (·.rule = rule.name) =
      ((rule.verdicts graph met elements).flatMap Verdict.remarks).map
        ((ActiveRule.attribution ⟨rule, severity⟩).finding translate) := by
  induction elements generalizing met with
  | nil => rfl
  | cons element rest inductionHypothesis =>
      have others : ∀ active ∈ rules, active.rule.name ≠ rule.name →
          (active.findings translate graph met element).filter (·.rule = rule.name) = [] := by
        intro active _ differs
        apply List.filter_eq_nil_iff.2
        intro finding made isNamed
        rcases ActiveRule.attributed_of_mem_findings made with ⟨own, _⟩ | ⟨engine, _⟩
        · exact differs (own.symm.trans (of_decide_eq_true isNamed))
        · exact notEngine ((of_decide_eq_true isNamed).symm.trans engine)
      have own : ((ActiveRule.mk rule severity).findings translate graph met element).filter
          (·.rule = rule.name) = (rule.check graph met element).remarks.map
            ((ActiveRule.attribution ⟨rule, severity⟩).finding translate) := by
        rw [ActiveRule.findings, List.filter_append, List.filter_eq_self.2,
          List.filter_eq_nil_iff.2, List.append_nil]
        · intro finding isFault isNamed
          obtain ⟨fault, _, rfl⟩ := List.mem_map.1 isFault
          exact notEngine (of_decide_eq_true isNamed).symm
        · intro finding isRemark
          obtain ⟨remark, _, rfl⟩ := List.mem_map.1 isRemark
          exact decide_eq_true rfl
      rw [findingsOn, List.filter_append, List.filter_flatMap, flatMap_of_key different isActive
        others, own, inductionHypothesis, Rule.verdicts, List.flatMap_cons, List.map_append]

/-- A rule that is on says in a report what it remarks, translated. -/
theorem Registry.Named.messagesOf_run {registry : Registry} (named : registry.Named)
    {name : String} (registered : registry.get? name = some ⟨rule, .on severity⟩)
    (notEngine : name ≠ Attribution.engine.rule) (translate : Translator) (graph : Graph)
    (id : ElementId) : (run registry translate graph).messagesOf name id =
      (messagesAbout (rule.remarks graph) id).map translate := by
  obtain rfl : rule.name = name := named.name_eq registered
  have found : (findingsOn (activeRules registry) translate graph [] graph.walk).filter
      (·.rule = rule.name) = _ :=
    filter_rule_findingsOn (mem_activeRules registered) named.nodup_active notEngine
  rw [Report.messagesOf, run, Report.get_ofFindings, List.filter_comm, found, List.filter_map,
    List.map_map, messagesAbout, List.map_map]
  rfl

/-- In a run of all built-in rules a rule says under its code what it says in its name. -/
theorem Registry.AllOn.messagesWith_run {registry : Registry} (allOn : registry.AllOn)
    {entry : Rule × Severity} (known : entry ∈ Registry.recommendedRules) (translate : Translator)
    (graph : Graph) (id : ElementId) :
    (run registry translate graph).messagesWith entry.1.code id =
      (messagesAbout (entry.1.remarks graph) id).map translate := by
  obtain ⟨severity, registered⟩ := allOn.isOn entry known
  obtain ⟨notEngine, noFault⟩ := recommended_ne_engine entry known
  have sameFindings : ∀ finding ∈ (run registry translate graph).get id,
      decide (finding.code = entry.1.code) = decide (finding.rule = entry.1.name) := by
    intro finding isFound
    rw [run, Report.get_ofFindings] at isFound
    obtain ⟨active, isActive, ⟨ownRule, ownCode⟩ | ⟨engineRule, engineCode⟩⟩ :=
      exists_of_mem_findingsOn (List.mem_of_mem_filter isFound)
    · obtain ⟨_, isBuiltIn⟩ := allOn.builtIn.exists_severity isActive
      rw [ownRule, ownCode, decide_eq_decide]
      exact code_eq_iff entry known _ isBuiltIn
    · rw [engineRule, engineCode, decide_eq_false noFault.symm, decide_eq_false notEngine.symm]
  rw [← allOn.assembled.named.messagesOf_run registered notEngine, Report.messagesWith,
    Report.messagesOf, List.filter_congr sameFindings]

/-- A run of all built-in rules says under the code of a rule, translated, what the rule says. -/
theorem Registry.AllOn.messagesWith_of_tells {registry : Registry} (allOn : registry.AllOn)
    {entry : Rule × Severity} (known : entry ∈ Registry.recommendedRules)
    {told : Node → List String} (tells : entry.1.Tells graph told) (translate : Translator) :
    (∀ node ∈ graph.nodes, (run registry translate graph).messagesWith entry.1.code node.id =
      (told node).map translate) ∧
      ∀ id, (∀ node ∈ graph.nodes, node.id ≠ id) →
        (run registry translate graph).messagesWith entry.1.code id = [] := by
  constructor
  · intro node present
    rw [allOn.messagesWith_run known, tells.ofNode node present]
  · intro id absent
    rw [allOn.messagesWith_run known, tells.ofNothingElse id absent, List.map_nil]

end Run

end BusinessProcess.Lint
