import BusinessProcess.Proofs.History.Admission
import BusinessProcess.Proofs.History.Removal
import BusinessProcess.Proofs.Lint.Remarks

/-!
# Which flows are reported as duplicates

The rule about duplicate flows remembers which flows it has met, and which sources and targets it
has named. What it has said of an element after some flows is told by the repetitions among these
flows, whatever their order was: this is the invariant of a run. A key that several flows share has
one repetition less than flows, so neither the number of reports for a key nor the nodes that are
reported depend on the order in which flows were added.
-/

namespace BusinessProcess

namespace Lint

namespace Rule

/-! ## Repetitions -/

/-- Repetitions are among the flows, in their order. -/
theorem repetitions_sublist (met : List SequenceFlow) : (repetitions met).Sublist met := by
  induction met with
  | nil => exact .slnil
  | cons flow before inductionHypothesis =>
      rw [repetitions]
      split
      next => exact inductionHypothesis.cons_cons flow
      next => exact inductionHypothesis.cons flow

/-- A repetition is a flow that is the same as one met before it. -/
theorem mem_repetitions {met : List SequenceFlow} {flow : SequenceFlow} :
    flow ∈ repetitions met ↔ ∃ later before, met = later ++ flow :: before ∧
      repeats before flow = true := by
  induction met with
  | nil => simp [repetitions]
  | cons head rest inductionHypothesis =>
      constructor
      · intro isRepetition
        by_cases again : repeats rest head = true
        · rw [repetitions, if_pos again] at isRepetition
          rcases List.mem_cons.1 isRepetition with rfl | isEarlier
          · exact ⟨[], rest, rfl, again⟩
          · obtain ⟨later, before, rfl, isRepeat⟩ := inductionHypothesis.1 isEarlier
            exact ⟨head :: later, before, rfl, isRepeat⟩
        · rw [repetitions, if_neg again] at isRepetition
          obtain ⟨later, before, rfl, isRepeat⟩ := inductionHypothesis.1 isRepetition
          exact ⟨head :: later, before, rfl, isRepeat⟩
      · rintro ⟨later, before, split, isRepeat⟩
        cases later with
        | nil =>
            obtain ⟨rfl, rfl⟩ := List.cons_eq_cons.1 split
            rw [repetitions, if_pos isRepeat]
            exact List.mem_cons_self
        | cons first others =>
            obtain ⟨rfl, rfl⟩ := List.cons_eq_cons.1 split
            have isEarlier := inductionHypothesis.2 ⟨others, before, rfl, isRepeat⟩
            rw [repetitions]
            split
            next => exact List.mem_cons_of_mem _ isEarlier
            next => exact isEarlier

/-- Of the flows that share a key all but one are repetitions. -/
theorem countP_repetitions (met : List SequenceFlow) (key : FlowKey) :
    (repetitions met).countP (flowKey · = key) = met.countP (flowKey · = key) - 1 := by
  induction met with
  | nil => rfl
  | cons flow before inductionHypothesis =>
      by_cases hasKey : flowKey flow = key
      · have isRepeat : repeats before flow = true ↔ 0 < before.countP (flowKey · = key) := by
          rw [List.countP_pos_iff, repeats, List.any_eq_true, hasKey]
        rw [repetitions]
        split
        next again =>
          have shared := isRepeat.1 again
          simp only [List.countP_cons, hasKey, decide_true, if_true, inductionHypothesis]
          omega
        next new =>
          have unshared := mt isRepeat.2 new
          simp only [List.countP_cons, hasKey, decide_true, if_true, inductionHypothesis]
          omega
      · rw [repetitions]
        split
        next => simpa [List.countP_cons, hasKey] using inductionHypothesis
        next => simpa [List.countP_cons, hasKey] using inductionHypothesis

/-! ## What is said of an element -/

/-- What is remarked about flows, one after the other, given those met before. -/
def duplicateRemarksOn : (before : List SequenceFlow) → List SequenceFlow → List Remark
  | _, [] => []
  | before, flow :: rest => duplicateRemarks before flow ++ duplicateRemarksOn (flow :: before) rest

/-- What has been said of an element when these flows were met, the latest first. -/
def duplicateMessages (met : List SequenceFlow) (id : ElementId) : List String :=
  let repeated := repetitions met
  (repeated.filter (·.id = id)).map (fun _ => "SequenceFlow is a duplicate") ++
    (if repeated.any (·.source = id) then ["Duplicate outgoing sequence flows"] else []) ++
    (if repeated.any (·.target = id) then ["Duplicate incoming sequence flows"] else [])

/-- An end of a repetition is remarked on unless it is one of an earlier repetition. -/
theorem messages_of_ends (tip : SequenceFlow → ElementId) (message : String)
    (repeated : List SequenceFlow) (flow : SequenceFlow) (id : ElementId) :
    (if (flow :: repeated).any (tip · = id) then [message] else []) =
      (if repeated.any (tip · = id) then [message] else []) ++
        messagesAbout (if repeated.any (tip · = tip flow) then [] else [⟨tip flow, message⟩])
          id := by
  by_cases atEnd : tip flow = id
  · subst atEnd
    have isEnd : (flow :: repeated).any (tip · = tip flow) = true := by
      simp
    rw [isEnd, if_pos rfl]
    split <;> simp
  · rw [List.any_cons, decide_eq_false atEnd, Bool.false_or, apply_ite (messagesAbout · id),
      messagesAbout_singleton, if_neg atEnd, messagesAbout_nil, ite_self, List.append_nil]

/-- With one more flow is said what is remarked about this flow. -/
theorem duplicateMessages_cons (before : List SequenceFlow) (flow : SequenceFlow)
    (id : ElementId) : (duplicateMessages (flow :: before) id).Perm
      (duplicateMessages before id ++ messagesAbout (duplicateRemarks before flow) id) := by
  unfold duplicateMessages duplicateRemarks
  rw [repetitions]
  split
  next =>
    have own : ((flow :: repetitions before).filter (·.id = id)).map
        (fun _ => "SequenceFlow is a duplicate") =
        messagesAbout [⟨flow.id, "SequenceFlow is a duplicate"⟩] id ++
          ((repetitions before).filter (·.id = id)).map
            fun _ => "SequenceFlow is a duplicate" := by
      rw [messagesAbout_singleton, List.filter_cons]
      split <;> simp_all
    simp only [own, messages_of_ends SequenceFlow.source, messages_of_ends SequenceFlow.target,
      messagesAbout_append]
    -- The messages about flows stand before those about ends, so the new ones are not all last.
    rw [List.perm_iff_count]
    intro message
    simp only [List.count_append]
    omega
  next => simp

/-- What has been said in the end is what had been said before and what is remarked since. -/
theorem duplicateMessages_append (before flows : List SequenceFlow) (id : ElementId) :
    (duplicateMessages (flows.reverse ++ before) id).Perm
      (duplicateMessages before id ++ messagesAbout (duplicateRemarksOn before flows) id) := by
  induction flows generalizing before with
  | nil => simp [duplicateRemarksOn]
  | cons flow rest inductionHypothesis =>
      rw [List.reverse_cons, List.append_assoc, List.singleton_append, duplicateRemarksOn,
        messagesAbout_append, ← List.append_assoc]
      exact (inductionHypothesis (flow :: before)).trans
        ((duplicateMessages_cons before flow id).append_right _)

/-- The verdicts on elements are those on the flows among them that are compared. -/
theorem remarks_noDuplicateSequenceFlows (graph : Graph) (met elements : List Element) :
    (noDuplicateSequenceFlows.verdicts graph met elements).flatMap Verdict.remarks =
      duplicateRemarksOn (met.filterMap comparedFlow?) (elements.filterMap comparedFlow?) := by
  induction elements generalizing met with
  | nil => rfl
  | cons element rest inductionHypothesis =>
      rw [verdicts, List.flatMap_cons, inductionHypothesis, List.filterMap_cons,
        List.filterMap_cons]
      cases compared : comparedFlow? element with
      | none => simp [noDuplicateSequenceFlows, compared]
      | some flow => simp [noDuplicateSequenceFlows, compared, duplicateRemarksOn]

/-! ## Duplicates of a process -/

/-- The flows of a process that are compared, in the order of the walk. -/
def compared (graph : Graph) : List SequenceFlow :=
  graph.walk.filterMap comparedFlow?

/-- Of the flows that are compared, one that is met earlier has the same key. -/
def Repeated (graph : Graph) (flow : SequenceFlow) : Prop :=
  ∃ before after, compared graph = before ++ flow :: after ∧
    ∃ other ∈ before, flowKey other = flowKey flow

/-- How many of the flows that are compared have a key. -/
def sharing (graph : Graph) (key : FlowKey) : Nat :=
  graph.flows.countP fun flow => !flow.id.endsWith exemptEnding && flowKey flow = key

theorem repeated_iff {graph : Graph} {flow : SequenceFlow} :
    Repeated graph flow ↔ flow ∈ repetitions (compared graph).reverse := by
  rw [mem_repetitions]
  constructor
  · rintro ⟨before, after, split, other, isEarlier, same⟩
    refine ⟨after.reverse, before.reverse, by simp [split], ?_⟩
    exact List.any_eq_true.2 ⟨other, List.mem_reverse.2 isEarlier, decide_eq_true same⟩
  · rintro ⟨later, before, split, isRepeat⟩
    obtain ⟨other, isEarlier, same⟩ := List.any_eq_true.1 isRepeat
    refine ⟨before.reverse, later.reverse, ?_, other, List.mem_reverse.2 isEarlier,
      of_decide_eq_true same⟩
    rw [← List.reverse_reverse (compared graph), split]
    simp

instance (graph : Graph) (flow : SequenceFlow) : Decidable (Repeated graph flow) :=
  decidable_of_iff _ repeated_iff.symm

section WellFormed

variable {graph : Graph} (wellFormed : graph.WellFormed)
include wellFormed

/-- Every flow that does not belong to a time limit is compared, each once. -/
theorem compared_perm :
    (compared graph).Perm (graph.flows.filter fun flow => !flow.id.endsWith exemptEnding) := by
  obtain ⟨_, _, _, _, all⟩ := wellFormed.exists_walk
  have noNodes : (graph.nodes.map Element.node).filterMap comparedFlow? = [] := by
    simp [List.filterMap_map, comparedFlow?]
  have allFlows : (graph.flows.map Element.flow).filterMap comparedFlow? =
      graph.flows.filter fun flow => !flow.id.endsWith exemptEnding := by
    rw [List.filterMap_map, ← List.filterMap_eq_filter]
    apply List.filterMap_congr
    intro flow _
    cases isExempt : flow.id.endsWith exemptEnding <;>
      simp [comparedFlow?, Option.guard, isExempt]
  have perm := all.filterMap comparedFlow?
  rwa [Graph.elements, List.filterMap_append, noNodes, allFlows, List.nil_append] at perm

/-- The repetitions are the repeated flows of the process, each once. -/
theorem repetitions_perm : (repetitions (compared graph).reverse).Perm
    (graph.flows.filter fun flow => Repeated graph flow) := by
  have distinct := Graph.nodup_flows wellFormed.distinct
  have perm := (List.reverse_perm _).trans (compared_perm wellFormed)
  have sublist := repetitions_sublist (compared graph).reverse
  rw [List.perm_ext_iff_of_nodup (sublist.nodup (perm.nodup_iff.2 (distinct.filter _)))
    (distinct.filter _)]
  intro flow
  rw [List.mem_filter, decide_eq_true_iff, repeated_iff]
  refine ⟨fun isRepetition => ⟨?_, isRepetition⟩, And.right⟩
  exact List.mem_of_mem_filter (perm.mem_iff.1 (sublist.subset isRepetition))

/-- Of the flows with a key all but one are repeated. -/
theorem countP_repeated (key : FlowKey) :
    graph.flows.countP (fun flow => Repeated graph flow ∧ flowKey flow = key) =
      sharing graph key - 1 := by
  have perm := (List.reverse_perm _).trans (compared_perm wellFormed)
  calc graph.flows.countP (fun flow => Repeated graph flow ∧ flowKey flow = key)
    _ = (repetitions (compared graph).reverse).countP (flowKey · = key) := by
        rw [(repetitions_perm wellFormed).countP_eq, List.countP_filter]
        simp only [Bool.decide_and, Bool.and_comm]
    _ = (compared graph).reverse.countP (flowKey · = key) - 1 := countP_repetitions _ key
    _ = sharing graph key - 1 := by
        rw [perm.countP_eq, List.countP_filter, sharing]
        simp only [Bool.and_comm]

/-- There is a repeated flow with a key of some sort exactly if two flows share such a key. -/
theorem exists_repeated_iff (sort : FlowKey → Prop) :
    (∃ flow ∈ graph.flows, Repeated graph flow ∧ sort (flowKey flow)) ↔
      ∃ key, sort key ∧ 2 ≤ sharing graph key := by
  constructor
  · rintro ⟨flow, drawn, repeated, ofSort⟩
    have counted : 0 < graph.flows.countP fun other =>
        Repeated graph other ∧ flowKey other = flowKey flow :=
      List.countP_pos_iff.2 ⟨flow, drawn, decide_eq_true ⟨repeated, rfl⟩⟩
    rw [countP_repeated wellFormed] at counted
    exact ⟨flowKey flow, ofSort, by omega⟩
  · rintro ⟨key, ofSort, shared⟩
    have counted := countP_repeated wellFormed key
    obtain ⟨flow, drawn, isRepeated⟩ := List.countP_pos_iff.1 (by omega :
      0 < graph.flows.countP fun flow => Repeated graph flow ∧ flowKey flow = key)
    obtain ⟨repeated, rfl⟩ := of_decide_eq_true isRepeated
    exact ⟨flow, drawn, repeated, ofSort⟩

/-- An end is one of a repetition if it is one of a repeated flow. -/
theorem any_repetitions (tip : SequenceFlow → ElementId) (id : ElementId) :
    (repetitions (compared graph).reverse).any (tip · = id) =
      decide (∃ flow ∈ graph.flows, Repeated graph flow ∧ tip flow = id) := by
  rw [(repetitions_perm wellFormed).any_eq, Bool.eq_iff_iff, List.any_eq_true, decide_eq_true_iff]
  simp only [List.mem_filter, decide_eq_true_eq, and_assoc]

/-- Of a flow is said in the end whether it is repeated. -/
theorem duplicateMessages_flow {flow : SequenceFlow} (drawn : flow ∈ graph.flows) :
    duplicateMessages (compared graph).reverse flow.id =
      if Repeated graph flow then ["SequenceFlow is a duplicate"] else [] := by
  have noEnd : ∀ tip : SequenceFlow → ElementId,
      (∀ other ∈ graph.flows, ∃ node ∈ graph.nodes, node.id = tip other) →
        (repetitions (compared graph).reverse).any (tip · = flow.id) = false := by
    intro tip joined
    rw [any_repetitions wellFormed, decide_eq_false_iff_not]
    rintro ⟨other, otherDrawn, _, isEnd⟩
    obtain ⟨node, present, isTip⟩ := joined other otherDrawn
    exact Graph.id_ne_of_mem wellFormed.distinct present drawn (isTip.trans isEnd)
  have own : (repetitions (compared graph).reverse).filter (·.id = flow.id) =
      if Repeated graph flow then [flow] else [] := by
    have among := (repetitions_perm wellFormed).filter (·.id = flow.id)
    rw [List.filter_comm, filter_of_key (List.nodup_append.1 wellFormed.distinct).2.1 drawn,
      List.filter_cons, List.filter_nil] at among
    split at among
    next repeated => rw [if_pos (of_decide_eq_true repeated), List.perm_singleton.1 among]
    next first => rw [if_neg (mt decide_eq_true first), List.perm_nil.1 among]
  rw [duplicateMessages, own, noEnd SequenceFlow.source fun other otherDrawn =>
    (wellFormed.joined other otherDrawn).1, noEnd SequenceFlow.target fun other otherDrawn =>
    (wellFormed.joined other otherDrawn).2]
  split <;> rfl

/-- Of an id that no flow has is said in the end whether repeated flows leave and enter there. -/
theorem duplicateMessages_of_no_flow {id : ElementId}
    (noFlow : ∀ flow ∈ graph.flows, flow.id ≠ id) :
    duplicateMessages (compared graph).reverse id =
      (if ∃ flow ∈ graph.flows, Repeated graph flow ∧ flow.source = id then
        ["Duplicate outgoing sequence flows"] else []) ++
      if ∃ flow ∈ graph.flows, Repeated graph flow ∧ flow.target = id then
        ["Duplicate incoming sequence flows"] else [] := by
  have noFlowAgain : (repetitions (compared graph).reverse).filter (·.id = id) = [] := by
    apply List.filter_eq_nil_iff.2
    intro flow isRepetition isId
    have drawn := List.mem_of_mem_filter ((repetitions_perm wellFormed).mem_iff.1 isRepetition)
    exact noFlow flow drawn (of_decide_eq_true isId)
  rw [duplicateMessages, noFlowAgain, any_repetitions wellFormed, any_repetitions wellFormed]
  simp only [decide_eq_true_eq, List.map_nil, List.nil_append]

omit wellFormed in
/-- What the rule remarks on an element is what has been said of it in the end. -/
theorem messagesAbout_duplicates (id : ElementId) :
    (messagesAbout (noDuplicateSequenceFlows.remarks graph) id).Perm
      (duplicateMessages (compared graph).reverse id) := by
  have grown := duplicateMessages_append [] (compared graph) id
  rw [List.append_nil] at grown
  rw [remarks, remarks_noDuplicateSequenceFlows]
  exact grown.symm

end WellFormed

end Rule

/-- How often a report names flows with a key as duplicates. -/
def Report.duplicates (report : Report) (graph : Graph) (key : Rule.FlowKey) : Nat :=
  ((graph.flows.filter (Rule.flowKey · = key)).map fun flow =>
    (report.messagesOf "no-duplicate-sequence-flows" flow.id).length).sum

/-- What a report says about duplicates. -/
structure Report.NamesDuplicates (report : Report) (translate : Translator) (graph : Graph) :
    Prop where
  /-- A flow is named once if one that is met earlier has the same key, and else not at all. -/
  flows : ∀ flow ∈ graph.flows, report.messagesOf "no-duplicate-sequence-flows" flow.id =
    if Rule.Repeated graph flow then [translate "SequenceFlow is a duplicate"] else []
  /-- A node is named once as the source and once as the target of the flows that are named. -/
  nodes : ∀ node ∈ graph.nodes, (report.messagesOf "no-duplicate-sequence-flows" node.id).Perm
    ((if ∃ flow ∈ graph.flows, Rule.Repeated graph flow ∧ flow.source = node.id then
        [translate "Duplicate outgoing sequence flows"] else []) ++
      if ∃ flow ∈ graph.flows, Rule.Repeated graph flow ∧ flow.target = node.id then
        [translate "Duplicate incoming sequence flows"] else [])
  nothingElse : ∀ id ∉ graph.ids, report.messagesOf "no-duplicate-sequence-flows" id = []
  /-- All but one of the flows that share a key are named. -/
  perKey : ∀ key, report.duplicates graph key = Rule.sharing graph key - 1

/-- A sum of ones and zeros counts the ones. -/
theorem sum_map_ite {α : Type} (items : List α) (holds : α → Prop) [DecidablePred holds] :
    (items.map fun item => if holds item then 1 else 0).sum =
      items.countP fun item => holds item := by
  induction items with
  | nil => rfl
  | cons item rest inductionHypothesis =>
      rw [List.map_cons, List.sum_cons, inductionHypothesis, List.countP_cons, Nat.add_comm]
      simp only [decide_eq_true_eq]

section Run

variable {registry : Registry} {severity : Severity} (named : registry.Named)
  (registered : registry.get? "no-duplicate-sequence-flows" =
    some ⟨Rule.noDuplicateSequenceFlows, .on severity⟩) (translate : Translator)
include named registered

theorem messagesOf_duplicates (graph : Graph) (id : ElementId) :
    ((run registry translate graph).messagesOf "no-duplicate-sequence-flows" id).Perm
      ((Rule.duplicateMessages (Rule.compared graph).reverse id).map translate) := by
  rw [named.messagesOf_run registered (by decide)]
  exact (Rule.messagesAbout_duplicates id).map translate

theorem namesDuplicates {graph : Graph} (wellFormed : graph.WellFormed) :
    (run registry translate graph).NamesDuplicates translate graph := by
  have flows : ∀ flow ∈ graph.flows,
      (run registry translate graph).messagesOf "no-duplicate-sequence-flows" flow.id =
        if Rule.Repeated graph flow then [translate "SequenceFlow is a duplicate"] else [] := by
    intro flow drawn
    have said := messagesOf_duplicates named registered translate graph flow.id
    rw [Rule.duplicateMessages_flow wellFormed drawn] at said
    split at said
    next isRepeated => rw [if_pos isRepeated, List.perm_singleton.1 said]
    next isFirst => rw [if_neg isFirst, List.perm_nil.1 said]
  refine ⟨flows, ?_, ?_, ?_⟩
  · intro node present
    have said := messagesOf_duplicates named registered translate graph node.id
    rw [Rule.duplicateMessages_of_no_flow wellFormed fun flow drawn =>
      (Graph.id_ne_of_mem wellFormed.distinct present drawn).symm] at said
    simpa only [List.map_append, apply_ite (List.map translate), List.map_cons, List.map_nil]
      using said
  · intro id absent
    have said := messagesOf_duplicates named registered translate graph id
    have noSource : ¬ ∃ flow ∈ graph.flows, Rule.Repeated graph flow ∧ flow.source = id := by
      rintro ⟨flow, drawn, _, rfl⟩
      obtain ⟨source, present, isSource⟩ := (wellFormed.joined flow drawn).1
      exact absent (isSource ▸ Graph.id_mem_of_node present)
    have noTarget : ¬ ∃ flow ∈ graph.flows, Rule.Repeated graph flow ∧ flow.target = id := by
      rintro ⟨flow, drawn, _, rfl⟩
      obtain ⟨target, present, isTarget⟩ := (wellFormed.joined flow drawn).2
      exact absent (isTarget ▸ Graph.id_mem_of_node present)
    have noFlow : ∀ flow ∈ graph.flows, flow.id ≠ id := by
      rintro flow drawn rfl
      exact absent (Graph.id_mem_of_flow drawn)
    rw [Rule.duplicateMessages_of_no_flow wellFormed noFlow, if_neg noSource, if_neg noTarget]
      at said
    exact List.perm_nil.1 said
  · intro key
    have once : ∀ flow ∈ graph.flows.filter (Rule.flowKey · = key),
        ((run registry translate graph).messagesOf "no-duplicate-sequence-flows" flow.id).length =
          if Rule.Repeated graph flow then 1 else 0 := by
      intro flow hasKey
      rw [flows flow (List.mem_of_mem_filter hasKey), apply_ite List.length]
      rfl
    rw [Report.duplicates, List.map_congr_left once, sum_map_ite, List.countP_filter,
      ← Rule.countP_repeated wellFormed]
    simp only [Bool.decide_and]

/-- What is said of duplicates does not depend on the order of the flows. -/
theorem duplicates_of_perm {graph other : Graph} (wellFormed : graph.WellFormed)
    (otherWellFormed : other.WellFormed) (perm : graph.flows.Perm other.flows) :
    (∀ key, (run registry translate graph).duplicates graph key =
      (run registry translate other).duplicates other key) ∧
      ∀ id, (∀ flow ∈ graph.flows, flow.id ≠ id) →
        ((run registry translate graph).messagesOf "no-duplicate-sequence-flows" id).Perm
          ((run registry translate other).messagesOf "no-duplicate-sequence-flows" id) := by
  have shared : ∀ key, Rule.sharing graph key = Rule.sharing other key := fun key =>
    perm.countP_eq _
  constructor
  · intro key
    rw [(namesDuplicates named registered translate wellFormed).perKey, shared,
      (namesDuplicates named registered translate otherWellFormed).perKey]
  · intro id noFlow
    have ofSort : ∀ sort : Rule.FlowKey → Prop,
        (∃ flow ∈ graph.flows, Rule.Repeated graph flow ∧ sort (Rule.flowKey flow)) ↔
          ∃ flow ∈ other.flows, Rule.Repeated other flow ∧ sort (Rule.flowKey flow) := by
      intro sort
      rw [Rule.exists_repeated_iff wellFormed, Rule.exists_repeated_iff otherWellFormed]
      simp only [shared]
    have atSource : (∃ flow ∈ graph.flows, Rule.Repeated graph flow ∧ flow.source = id) ↔
        ∃ flow ∈ other.flows, Rule.Repeated other flow ∧ flow.source = id :=
      ofSort fun key => key.source = id
    have atTarget : (∃ flow ∈ graph.flows, Rule.Repeated graph flow ∧ flow.target = id) ↔
        ∃ flow ∈ other.flows, Rule.Repeated other flow ∧ flow.target = id :=
      ofSort fun key => key.target = id
    have same : Rule.duplicateMessages (Rule.compared graph).reverse id =
        Rule.duplicateMessages (Rule.compared other).reverse id := by
      rw [Rule.duplicateMessages_of_no_flow wellFormed noFlow,
        Rule.duplicateMessages_of_no_flow otherWellFormed fun flow drawn =>
          noFlow flow (perm.mem_iff.2 drawn),
        if_congr atSource rfl rfl, if_congr atTarget rfl rfl]
    have said := messagesOf_duplicates named registered translate graph id
    rw [same] at said
    exact said.trans (messagesOf_duplicates named registered translate other id).symm

end Run

end Lint

open Lint

/-- In every reached process a run with the rule about duplicate flows, whatever other rules take
part, names a flow as a duplicate once if it has the source, the target and the condition of a flow
that is met earlier, and not at all otherwise; flows of time limits are left out. So of the flows
that share a key all but one are named. A node is named once as a source and once as a target if
such a flow leaves or enters it. In whatever order the same flows are added to the process, as many
are named for each key, and the same is said of each node. -/
theorem Reached.duplicates_reported {policy : Policy} {root : ElementId} {ledger : Ledger}
    (reached : Reached policy root ledger) {registry : Registry} (assembled : registry.Assembled)
    {severity : Severity} (registered : registry.get? "no-duplicate-sequence-flows" =
      some ⟨Rule.noDuplicateSequenceFlows, .on severity⟩) (translate : Translator) :
    (run registry translate ledger.graph).NamesDuplicates translate ledger.graph ∧
      ∀ drawings others : List Drawing, drawings.Perm others →
        (drawings.map fun drawing => drawing.flow.id).Nodup →
          let first := (ledger.recordAll (drawings.map Drawing.edit)).graph
          let second := (ledger.recordAll (others.map Drawing.edit)).graph
          (∀ key, (run registry translate first).duplicates first key =
            (run registry translate second).duplicates second key) ∧
            ∀ node ∈ ledger.graph.nodes,
              ((run registry translate first).messagesOf "no-duplicate-sequence-flows"
                node.id).Perm
                ((run registry translate second).messagesOf "no-duplicate-sequence-flows"
                  node.id) := by
  have wellFormed := reached.sound.wellFormed
  refine ⟨namesDuplicates assembled.named registered translate wellFormed, ?_⟩
  intro drawings others perm different first second
  have isFirst : first = (drawings.map Drawing.edit).foldl Edit.run ledger.graph :=
    ledger.graph_recordAll _
  have isSecond : second = (others.map Drawing.edit).foldl Edit.run ledger.graph :=
    ledger.graph_recordAll _
  rw [isFirst, isSecond]
  obtain ⟨numbers, nodes⟩ := duplicates_of_perm assembled.named registered translate
    (wellFormed.run_edits drawings).1 (wellFormed.run_edits others).1
    (Graph.flows_run_edits_perm perm different)
  exact ⟨numbers, fun node present => nodes node.id (wellFormed.no_flow_of_node drawings present)⟩

/-- Of three flows between two tasks the one in the sub-process is met first, so the other two are
named; a flow with a condition and one of a time limit are not. Where the flows are added the other
way round, as many are named, and the same is said of the tasks. -/
theorem duplicates_reported_across_scopes :
    let drawings : List Drawing :=
      [⟨⟨"P"⟩, .between ⟨"F"⟩ ⟨"A"⟩ ⟨"B"⟩, true⟩, ⟨⟨"S"⟩, .between ⟨"G"⟩ ⟨"A"⟩ ⟨"B"⟩, false⟩,
        ⟨⟨"P"⟩, { SequenceFlow.between ⟨"H"⟩ ⟨"A"⟩ ⟨"B"⟩ with condition := some "" }, true⟩,
        ⟨⟨"P"⟩, { SequenceFlow.between ⟨"I"⟩ ⟨"A"⟩ ⟨"B"⟩ with condition := some "x" }, true⟩,
        ⟨⟨"P"⟩, .between ⟨"T_service_flow"⟩ ⟨"A"⟩ ⟨"B"⟩, true⟩]
    ∃ ledger, Reached ⟨true, true⟩ ⟨"P"⟩ ledger ∧
      let first := (ledger.recordAll (drawings.map Drawing.edit)).graph
      let second := (ledger.recordAll (drawings.reverse.map Drawing.edit)).graph
      (first.flows.map fun flow => (run .recommended id first).messagesOf
          "no-duplicate-sequence-flows" flow.id) =
        [["SequenceFlow is a duplicate"], [], ["SequenceFlow is a duplicate"], [], []] ∧
      (run .recommended id first).duplicates first ⟨⟨"A"⟩, ⟨"B"⟩, ""⟩ = 2 ∧
      (run .recommended id second).duplicates second ⟨⟨"A"⟩, ⟨"B"⟩, ""⟩ = 2 ∧
      ((run .recommended id second).messagesOf "no-duplicate-sequence-flows" ⟨"B"⟩).Perm
        ["Duplicate incoming sequence flows"] := by
  intro drawings
  let scope : Node := .alone ⟨"S"⟩ (.subProcess false)
  let base := (((Ledger.new ⟨"P"⟩).record (.addNode ⟨"P"⟩ scope)).record
    (.addNode ⟨"P"⟩ (.alone ⟨"A"⟩ (.task .user)))).record
    (.addNode ⟨"P"⟩ (.alone ⟨"B"⟩ (.task .user)))
  have isBase : Reached ⟨true, true⟩ ⟨"P"⟩ base :=
    ((Reached.new.addAlone _ _ _).addAlone _ _ _).addAlone _ _ _
  let built := base.recordAll (drawings.map Drawing.edit)
  have isBuilt : Reached ⟨true, true⟩ ⟨"P"⟩ built :=
    .edit (.edit (.edit (.edit (.edit isBase trivial) rfl) trivial) trivial) trivial
  have registered : Registry.recommended.get? "no-duplicate-sequence-flows" =
      some ⟨Rule.noDuplicateSequenceFlows, .on .error⟩ := rfl
  obtain ⟨named, _⟩ := isBuilt.duplicates_reported Registry.assembled_recommended registered id
  obtain ⟨_, anyOrder⟩ := isBase.duplicates_reported Registry.assembled_recommended registered id
  obtain ⟨numbers, nodes⟩ := anyOrder drawings drawings.reverse (List.reverse_perm _).symm
    (by decide)
  have two : (run .recommended id built.graph).duplicates built.graph ⟨⟨"A"⟩, ⟨"B"⟩, ""⟩ = 2 :=
    (named.perKey _).trans (by decide +kernel)
  refine ⟨base, isBase, ?_, two, (numbers _).symm.trans two, ?_⟩
  · rw [List.map_congr_left named.flows]
    decide +kernel
  · obtain ⟨node, isHere, isTarget⟩ : ∃ node ∈ built.graph.nodes, node.id = ⟨"B"⟩ := by decide
    have said := named.nodes node isHere
    rw [isTarget] at said
    have notSource : ¬ ∃ flow ∈ built.graph.flows,
        Rule.Repeated built.graph flow ∧ flow.source = ⟨"B"⟩ := by decide +kernel
    have isEnd : ∃ flow ∈ built.graph.flows,
        Rule.Repeated built.graph flow ∧ flow.target = ⟨"B"⟩ := by decide +kernel
    rw [if_neg notSource, if_pos isEnd, List.nil_append] at said
    obtain ⟨before, wasThere, sameId⟩ : ∃ node ∈ base.graph.nodes, node.id = ⟨"B"⟩ := by decide
    exact (sameId ▸ nodes before wasThere).symm.trans said

end BusinessProcess
