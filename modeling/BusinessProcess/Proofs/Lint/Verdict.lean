import BusinessProcess.Proofs.Lint.Tally

/-!
# The verdict of the drawn flows

The rules on conditions, joins, forks and gateways go by the references of a node. As long as every
reference is made together with its flow, these rules judge the flows that are drawn: each code is
reported once on the elements that the flows put at fault, and on no others.
-/

namespace BusinessProcess

namespace Lint

/-- The name is absent or blank. -/
abbrev Unnamed (name : Option String) : Prop :=
  name.all Text.isBlankText = true

/-- Whether a gateway of this kind decides which of its flows to take. -/
def isDecision : NodeKind → Bool
  | .gateway .exclusive | .gateway .inclusive | .gateway .complex => true
  | _ => false

/-- A task or event is entered by two flows or more. -/
abbrev JoinsFalsely (graph : Graph) (node : Node) : Prop :=
  (node.kind.isTask ∨ node.kind.isEvent) ∧ 2 ≤ (graph.flowsInto node.id).length

/-- A task or event is left by two unguarded flows or more. -/
abbrev SplitsImplicitly (graph : Graph) (node : Node) : Prop :=
  (node.kind.isTask ∨ node.kind.isEvent) ∧
    2 ≤ (graph.flowsFrom node.id).countP fun flow => !flow.isGuarded

/-- A gateway is entered by two flows or more and left by two or more. -/
abbrev JoinsAndForks (graph : Graph) (node : Node) : Prop :=
  node.kind.isGateway ∧ 2 ≤ (graph.flowsInto node.id).length ∧
    2 ≤ (graph.flowsFrom node.id).length

/-- A gateway is entered by one flow and left by one. -/
abbrev PassesOn (graph : Graph) (node : Node) : Prop :=
  node.kind.isGateway ∧ (graph.flowsInto node.id).length = 1 ∧
    (graph.flowsFrom node.id).length = 1

/-- A node without a name needs one. A gateway that decides does if two flows or more leave it, and
for every other node it is a matter of its kind. -/
abbrev LacksName (graph : Graph) (node : Node) : Prop :=
  Unnamed node.name ∧
    if isDecision node.kind then 2 ≤ (graph.flowsFrom node.id).length else Rule.needsName node

/-- An unguarded flow has the same source as a guarded one. -/
abbrev LacksCondition (graph : Graph) (flow : SequenceFlow) : Prop :=
  flow.isGuarded = false ∧
    ∃ other ∈ graph.flows, other.source = flow.source ∧ other.isGuarded = true

/-! ## What each rule marks -/

/-- Whether an element is a node for which `due` holds. -/
def onNode (due : Node → Bool) : Element → Bool
  | .node node => due node
  | .flow _ => false

/-- The flows that leave an element and lack a condition. -/
def unconditioned (graph : Graph) : Element → List ElementId
  | .node node =>
      ((graph.flowsFrom node.id).filter fun flow => LacksCondition graph flow).map
        SequenceFlow.id
  | .flow _ => []

namespace Rule

/-- A remark that is made on a node if it is due marks the node. -/
theorem map_element_remarkIf {due : Bool} {node : Node} {message : String} :
    (remarkIf due node message).map Remark.element = if due then [node.id] else [] := by
  cases due <;> rfl

/-- A rule that looks at nodes only and says one thing about them marks the nodes at fault. -/
theorem marks_ofNodeCheck {name message : String} {code : Code} {graph : Graph}
    {check : Graph → Node → List Remark} {due : Node → Bool}
    (remarks : ∀ node ∈ graph.nodes, check graph node = remarkIf (due node) node message) :
    (ofNodeCheck name code check).Marks graph fun element =>
      if onNode due element then [element.id] else [] := by
  intro met element member
  cases element with
  | node node =>
      simp only [ofNodeCheck, ofCheck, remarks node (Graph.node_mem_elements.1 member),
        map_element_remarkIf]
      rfl
  | flow flow => rfl

section Linked

variable {root : ElementId} {ledger : Ledger} (fully : ledger.FullyLinked root)
include fully

theorem marks_fakeJoin : fakeJoin.Marks ledger.graph fun element =>
    if onNode (fun node => decide (JoinsFalsely ledger.graph node)) element then [element.id]
    else [] := by
  refine marks_ofNodeCheck fun node member => congrArg (remarkIf · node _) ?_
  rw [fully.length_incoming member, Bool.eq_iff_iff]
  simp only [isTaskOrEvent, Bool.and_eq_true, Bool.or_eq_true, decide_eq_true_eq]
  exact Iff.rfl

theorem marks_noImplicitSplit : noImplicitSplit.Marks ledger.graph fun element =>
    if onNode (fun node => decide (SplitsImplicitly ledger.graph node)) element then [element.id]
    else [] := by
  intro met element member
  cases element with
  | flow flow => rfl
  | node node =>
      have drawn := fully.outgoing_drawn (Graph.node_mem_elements.1 member)
      simp only [noImplicitSplit, ofCheck, drawn, onNode]
      cases mayFork : isTaskOrEvent node with
      | false =>
          have other : ¬(node.kind.isTask ∨ node.kind.isEvent) := by
            simpa [isTaskOrEvent] using mayFork
          simp [other]
      | true =>
          have isOne : node.kind.isTask ∨ node.kind.isEvent := by
            simpa [isTaskOrEvent] using mayFork
          have splits : SplitsImplicitly ledger.graph node ↔
              (ledger.graph.flowsFrom node.id).countP (fun flow => !flow.isGuarded) > 1 :=
            ⟨And.right, fun several => ⟨isOne, several⟩⟩
          simp only [if_true, map_element_remarkIf, splits]
          rfl

theorem marks_noGatewayJoinFork : noGatewayJoinFork.Marks ledger.graph fun element =>
    if onNode (fun node => decide (JoinsAndForks ledger.graph node)) element then [element.id]
    else [] := by
  refine marks_ofNodeCheck fun node member => congrArg (remarkIf · node _) ?_
  rw [fully.length_incoming member, fully.length_outgoing member, Bool.eq_iff_iff]
  simp only [Bool.and_eq_true, decide_eq_true_eq, and_assoc]
  exact Iff.rfl

theorem marks_superfluousGateway : superfluousGateway.Marks ledger.graph fun element =>
    if onNode (fun node => decide (PassesOn ledger.graph node)) element then [element.id]
    else [] := by
  refine marks_ofNodeCheck fun node member => congrArg (remarkIf · node _) ?_
  rw [fully.length_incoming member, fully.length_outgoing member, Bool.eq_iff_iff]
  simp only [Bool.and_eq_true, beq_iff_eq, decide_eq_true_eq, and_assoc]

/-- Whether a gateway needs a name goes by the flows that leave it. -/
theorem needsName_eq {node : Node} (member : node ∈ ledger.graph.nodes)
    (decides : isDecision node.kind = true) :
    needsName node = decide (2 ≤ (ledger.graph.flowsFrom node.id).length) := by
  have leaving := fully.length_outgoing member
  unfold isDecision at decides
  split at decides
  next kind => simp only [needsName, kind, leaving]; rfl
  next kind => simp only [needsName, kind, leaving]; rfl
  next kind => simp only [needsName, kind, leaving]; rfl
  next => cases decides

theorem marks_labelRequired : labelRequired.Marks ledger.graph fun element =>
    if (match element with
      | .node node => decide (LacksName ledger.graph node)
      | .flow flow => decide (flow.condition.isSome ∧ Unnamed flow.name))
    then [element.id] else [] := by
  intro met element member
  simp only [labelRequired, ofCheck]
  cases element with
  | flow flow =>
      simp only [Element.name, Bool.and_eq_true, decide_eq_true_eq]
      split <;> rfl
  | node node =>
      have needed : (if isDecision node.kind then
          2 ≤ (ledger.graph.flowsFrom node.id).length else needsName node) ↔
          needsName node = true := by
        cases decides : isDecision node.kind with
        | false => simp
        | true => simp [needsName_eq fully (Graph.node_mem_elements.1 member) decides]
      simp only [LacksName, needed, Element.name, Bool.and_eq_true, decide_eq_true_eq, and_comm]
      split <;> rfl

theorem marks_conditionalFlows : conditionalFlows.Marks ledger.graph
    (unconditioned ledger.graph) := by
  intro met element member
  cases element with
  | flow flow => rfl
  | node node =>
      have present := Graph.node_mem_elements.1 member
      have leaving := fully.length_outgoing present
      have guarded : ∀ flow ∈ ledger.graph.flowsFrom node.id,
          LacksCondition ledger.graph flow ↔ flow.isGuarded = false ∧
            (ledger.graph.flowsFrom node.id).any SequenceFlow.isGuarded = true := by
        intro flow leaves
        have source : flow.source = node.id := of_decide_eq_true (List.mem_filter.1 leaves).2
        simp only [LacksCondition, List.any_eq_true, Graph.flowsFrom, List.mem_filter,
          decide_eq_true_eq, source, and_assoc]
      simp only [conditionalFlows, ofCheck, fully.outgoing_drawn present, unconditioned]
      cases refersToNone : node.outgoing.isEmpty with
      | true =>
          have noneLeave : ledger.graph.flowsFrom node.id = [] := by
            rw [List.isEmpty_iff.1 refersToNone, List.length_nil] at leaving
            exact List.length_eq_zero_iff.1 leaving.symm
          simp [noneLeave]
      | false =>
          simp only [Bool.false_eq_true, if_false]
          cases forks : (ledger.graph.flowsFrom node.id).any SequenceFlow.isGuarded with
          | false =>
              have nothing : (ledger.graph.flowsFrom node.id).filter
                  (fun flow => LacksCondition ledger.graph flow) = [] := by
                refine List.filter_eq_nil_iff.2 fun flow leaves lacks => ?_
                exact Bool.false_ne_true
                  (forks.symm.trans ((guarded flow leaves).1 (of_decide_eq_true lacks)).2)
              rw [nothing]
              rfl
          | true =>
              simp only [if_true, List.map_map]
              have same : (ledger.graph.flowsFrom node.id).filter (fun flow => !flow.isGuarded) =
                  (ledger.graph.flowsFrom node.id).filter
                    fun flow => LacksCondition ledger.graph flow := by
                refine List.filter_congr fun flow leaves => ?_
                simp [guarded flow leaves, forks]
              rw [same]
              rfl

end Linked

end Rule

/-! ## Flows without a condition -/

/-- What is listed for an element is a drawn flow that leaves it and lacks a condition. -/
theorem exists_of_mem_unconditioned {graph : Graph} {element : Element} {id : ElementId}
    (listed : id ∈ unconditioned graph element) :
    ∃ flow ∈ graph.flows, flow.id = id ∧ flow.source = element.id ∧ LacksCondition graph flow := by
  cases element with
  | flow _ => cases listed
  | node node =>
      obtain ⟨flow, isListed, sameId⟩ := List.mem_map.1 listed
      obtain ⟨leaves, lacks⟩ := List.mem_filter.1 isListed
      obtain ⟨drawn, source⟩ := List.mem_filter.1 leaves
      exact ⟨flow, drawn, sameId, of_decide_eq_true source, of_decide_eq_true lacks⟩

/-- No flow is listed twice for an element. -/
theorem nodup_unconditioned {graph : Graph} (distinct : graph.ids.Nodup) (element : Element) :
    (unconditioned graph element).Nodup := by
  cases element with
  | flow _ => exact List.nodup_nil
  | node node =>
      refine List.Nodup.sublist ?_ (List.nodup_append.1 distinct).2.1
      exact (List.filter_sublist.trans List.filter_sublist).map SequenceFlow.id

/-- A flow is listed for its source if it lacks a condition. -/
theorem mem_unconditioned_iff {graph : Graph} (distinct : graph.ids.Nodup) {flow : SequenceFlow}
    (drawn : flow ∈ graph.flows) {source : Node} (isSource : source.id = flow.source) :
    flow.id ∈ unconditioned graph (.node source) ↔ LacksCondition graph flow := by
  constructor
  · intro listed
    obtain ⟨same, sameDrawn, sameId, _, lacks⟩ := exists_of_mem_unconditioned listed
    cases Graph.eq_of_id_eq distinct (Graph.flow_mem_elements.2 sameDrawn)
      (Graph.flow_mem_elements.2 drawn) sameId
    exact lacks
  · intro lacks
    refine List.mem_map.2 ⟨flow, List.mem_filter.2 ⟨List.mem_filter.2 ⟨drawn, ?_⟩, ?_⟩, rfl⟩
    · exact decide_eq_true isSource.symm
    · exact decide_eq_true lacks

/-- A run of all built-in rules reports a missing condition once on the flows that lack one and
nowhere else. -/
theorem Registry.AllOn.tally_missingCondition {registry : Registry} (allOn : registry.AllOn)
    {root : ElementId} {ledger : Ledger} (fully : ledger.FullyLinked root)
    (translate : Translator) :
    (∀ flow ∈ ledger.graph.flows,
      (run registry translate ledger.graph).tally .missingCondition flow.id =
        if LacksCondition ledger.graph flow then 1 else 0) ∧
      ∀ id, (∀ flow ∈ ledger.graph.flows, flow.id ≠ id) →
        (run registry translate ledger.graph).tally .missingCondition id = 0 := by
  have wellFormed := fully.wellFormed
  have known : (Rule.conditionalFlows, Severity.error) ∈ Registry.recommendedRules :=
    List.mem_cons_self
  have tally : ∀ id, (run registry translate ledger.graph).tally .missingCondition id =
      (ledger.graph.elements.map fun element =>
        (unconditioned ledger.graph element).count id).sum :=
    allOn.tally_run known wellFormed (Rule.marks_conditionalFlows fully) translate
  constructor
  · intro flow drawn
    obtain ⟨source, present, isSource⟩ := (wellFormed.joined flow drawn).1
    have elsewhere : ∀ other ∈ ledger.graph.elements, other.id ≠ source.id →
        (unconditioned ledger.graph other).count flow.id = 0 := by
      intro other _ differs
      refine List.count_eq_zero.2 fun listed => ?_
      obtain ⟨same, sameDrawn, sameId, otherSource, _⟩ := exists_of_mem_unconditioned listed
      cases Graph.eq_of_id_eq wellFormed.distinct (Graph.flow_mem_elements.2 sameDrawn)
        (Graph.flow_mem_elements.2 drawn) sameId
      exact differs (otherSource.symm.trans isSource.symm)
    have distinct : (ledger.graph.elements.map Element.id).Nodup := by
      rw [Graph.map_id_elements]
      exact wellFormed.distinct
    have isElement : Element.node source ∈ ledger.graph.elements :=
      Graph.node_mem_elements.2 present
    rw [tally flow.id, sum_map_of_key distinct isElement elsewhere,
      (nodup_unconditioned wellFormed.distinct _).count]
    exact if_congr (mem_unconditioned_iff wellFormed.distinct drawn isSource) rfl rfl
  · intro id notDrawn
    rw [tally id]
    refine List.sum_eq_zero fun added isAdded => ?_
    obtain ⟨element, _, rfl⟩ := List.mem_map.1 isAdded
    refine List.count_eq_zero.2 fun listed => ?_
    obtain ⟨flow, drawn, sameId, _⟩ := exists_of_mem_unconditioned listed
    exact notDrawn flow drawn sameId

/-! ## What a report says -/

/-- What a report says about a drawn flow. -/
structure JudgesFlow (report : Report) (graph : Graph) (flow : SequenceFlow) : Prop where
  missingCondition : report.tally .missingCondition flow.id =
    if LacksCondition graph flow then 1 else 0
  missingLabel : report.tally .missingLabel flow.id =
    if flow.condition.isSome ∧ Unnamed flow.name then 1 else 0
  nothingElse : ∀ code ∈ [Code.fakeJoin, .implicitSplit, .joinFork, .superfluousGateway],
    report.tally code flow.id = 0

/-- What a report says about a node, given the flows that are drawn. -/
structure JudgesNode (report : Report) (graph : Graph) (node : Node) : Prop where
  fakeJoin : report.tally .fakeJoin node.id = if JoinsFalsely graph node then 1 else 0
  implicitSplit : report.tally .implicitSplit node.id =
    if SplitsImplicitly graph node then 1 else 0
  joinFork : report.tally .joinFork node.id = if JoinsAndForks graph node then 1 else 0
  superfluousGateway : report.tally .superfluousGateway node.id =
    if PassesOn graph node then 1 else 0
  missingLabel : report.tally .missingLabel node.id = if LacksName graph node then 1 else 0
  missingCondition : report.tally .missingCondition node.id = 0

/-- The codes of the rules that go by the flows of a node or by names. -/
def flowCodes : List Code :=
  [.missingCondition, .fakeJoin, .implicitSplit, .joinFork, .superfluousGateway, .missingLabel]

end Lint

open Lint

/-- Where no node brings references along and flows are always added with theirs, a run of all
built-in rules judges the flows that are drawn. Each flow and each node has each of the codes once
if it is at fault by its drawn flows and not at all otherwise, and nothing else has them. -/
theorem Reached.verdict_of_drawn_flows {policy : Policy} {root : ElementId} {ledger : Ledger}
    (reached : Reached policy root ledger) (noReferences : policy.rawReferences = false)
    (alwaysLinked : policy.unlinkedFlows = false) {registry : Registry} (allOn : registry.AllOn)
    (translate : Translator) :
    (∀ flow ∈ ledger.graph.flows,
      JudgesFlow (run registry translate ledger.graph) ledger.graph flow) ∧
      (∀ node ∈ ledger.graph.nodes,
        JudgesNode (run registry translate ledger.graph) ledger.graph node) ∧
      ∀ id ∉ ledger.graph.ids, ∀ code ∈ flowCodes,
        (run registry translate ledger.graph).tally code id = 0 := by
  have fully := reached.fullyLinked noReferences alwaysLinked
  have wellFormed := fully.wellFormed
  obtain ⟨conditions, noConditions⟩ := allOn.tally_missingCondition fully translate
  obtain ⟨joins, noJoins⟩ := allOn.tally_of_self
    (List.mem_of_getElem? (rfl : Registry.recommendedRules[3]? = some (Rule.fakeJoin, .warn)))
    wellFormed (Rule.marks_fakeJoin fully) translate
  obtain ⟨labels, noLabels⟩ := allOn.tally_of_self
    (List.mem_of_getElem? (rfl : Registry.recommendedRules[4]? = some (Rule.labelRequired, .error)))
    wellFormed (Rule.marks_labelRequired fully) translate
  obtain ⟨forks, noForks⟩ := allOn.tally_of_self
    (List.mem_of_getElem?
      (rfl : Registry.recommendedRules[8]? = some (Rule.noGatewayJoinFork, .error)))
    wellFormed (Rule.marks_noGatewayJoinFork fully) translate
  obtain ⟨splits, noSplits⟩ := allOn.tally_of_self
    (List.mem_of_getElem?
      (rfl : Registry.recommendedRules[9]? = some (Rule.noImplicitSplit, .error)))
    wellFormed (Rule.marks_noImplicitSplit fully) translate
  obtain ⟨passes, noPasses⟩ := allOn.tally_of_self
    (List.mem_of_getElem?
      (rfl : Registry.recommendedRules[15]? = some (Rule.superfluousGateway, .warning)))
    wellFormed (Rule.marks_superfluousGateway fully) translate
  refine ⟨fun flow drawn => ?_, fun node present => ?_, fun id absent => ?_⟩
  · have isElement := Graph.flow_mem_elements.2 drawn
    refine ⟨conditions flow drawn, ?_, ?_⟩
    · exact (labels _ isElement).trans (if_congr decide_eq_true_iff rfl rfl)
    · simp only [List.forall_mem_cons]
      exact ⟨joins _ isElement, splits _ isElement, forks _ isElement, passes _ isElement,
        fun _ none => absurd none List.not_mem_nil⟩
  · have isElement := Graph.node_mem_elements.2 present
    exact {
      fakeJoin := (joins _ isElement).trans (if_congr decide_eq_true_iff rfl rfl)
      implicitSplit := (splits _ isElement).trans (if_congr decide_eq_true_iff rfl rfl)
      joinFork := (forks _ isElement).trans (if_congr decide_eq_true_iff rfl rfl)
      superfluousGateway := (passes _ isElement).trans (if_congr decide_eq_true_iff rfl rfl)
      missingLabel := (labels _ isElement).trans (if_congr decide_eq_true_iff rfl rfl)
      missingCondition := noConditions node.id fun flow drawn same =>
        Graph.id_ne_of_mem wellFormed.distinct present drawn same.symm }
  · simp only [flowCodes, List.forall_mem_cons]
    exact ⟨noConditions id fun flow drawn same => absent (same ▸ Graph.id_mem_of_flow drawn),
      noJoins id absent, noSplits id absent, noForks id absent, noPasses id absent,
      noLabels id absent, fun _ none => absurd none List.not_mem_nil⟩

/-- Of the two flows that leave a gateway without a name, the one without a condition is reported
once, and so are the gateway and the task in which flows meet; the other flow and the other task are
not. -/
theorem verdict_of_decision : ∃ ledger, Reached ⟨false, false⟩ ⟨"P"⟩ ledger ∧
    let report := run Registry.recommended id ledger.graph
    report.tally .missingLabel ⟨"G"⟩ = 1 ∧ report.tally .missingCondition ⟨"F2"⟩ = 1 ∧
      report.tally .missingCondition ⟨"F1"⟩ = 0 ∧ report.tally .fakeJoin ⟨"B"⟩ = 1 ∧
      report.tally .fakeJoin ⟨"A"⟩ = 0 := by
  let withNode := fun (ledger : Ledger) (id : ElementId) (kind : NodeKind) =>
    ledger.record (.addNode ⟨"P"⟩ (.alone id kind))
  let withFlow := fun (ledger : Ledger) (flow : SequenceFlow) => ledger.record (.addFlow ⟨"P"⟩ flow)
  have addsNode : ∀ {ledger} (id kind), Reached ⟨false, false⟩ ⟨"P"⟩ ledger →
      Reached ⟨false, false⟩ ⟨"P"⟩ (withNode ledger id kind) := fun id kind isReached =>
    .edit isReached (.fresh id kind ⟨rfl, rfl, rfl, rfl, fun _ => ⟨rfl, rfl⟩⟩)
  let nodes := withNode (withNode (withNode (.new ⟨"P"⟩) ⟨"G"⟩ (.gateway .exclusive)) ⟨"A"⟩
    (.task .user)) ⟨"B"⟩ (.task .user)
  let ledger := withFlow (withFlow (withFlow nodes
    { SequenceFlow.between ⟨"F1"⟩ ⟨"G"⟩ ⟨"A"⟩ with condition := some "approved" })
    (.between ⟨"F2"⟩ ⟨"G"⟩ ⟨"B"⟩)) (.between ⟨"F3"⟩ ⟨"A"⟩ ⟨"B"⟩)
  have isReached : Reached ⟨false, false⟩ ⟨"P"⟩ ledger :=
    .edit (.edit (.edit (addsNode _ _ (addsNode _ _ (addsNode _ _ .new))) trivial) trivial) trivial
  obtain ⟨flows, judged, _⟩ :=
    isReached.verdict_of_drawn_flows rfl rfl Registry.allOn_recommended id
  have gateway : ∃ node ∈ ledger.graph.nodes, node.id = ⟨"G"⟩ ∧ LacksName ledger.graph node := by
    decide +kernel
  have joining : ∃ node ∈ ledger.graph.nodes, node.id = ⟨"B"⟩ ∧
      JoinsFalsely ledger.graph node := by
    decide +kernel
  have other : ∃ node ∈ ledger.graph.nodes, node.id = ⟨"A"⟩ ∧
      ¬JoinsFalsely ledger.graph node := by
    decide +kernel
  have lacking : ∃ flow ∈ ledger.graph.flows, flow.id = ⟨"F2"⟩ ∧
      LacksCondition ledger.graph flow := by
    decide +kernel
  have guarded : ∃ flow ∈ ledger.graph.flows, flow.id = ⟨"F1"⟩ ∧
      ¬LacksCondition ledger.graph flow := by
    decide +kernel
  obtain ⟨gatewayNode, gatewayMember, gatewayId, lacksName⟩ := gateway
  obtain ⟨joiningNode, joiningMember, joiningId, joins⟩ := joining
  obtain ⟨otherNode, otherMember, otherId, joinsNot⟩ := other
  obtain ⟨lackingFlow, lackingMember, lackingId, lacks⟩ := lacking
  obtain ⟨guardedFlow, guardedMember, guardedId, lacksNot⟩ := guarded
  refine ⟨ledger, isReached, ?_, ?_, ?_, ?_, ?_⟩
  · rw [← gatewayId, (judged _ gatewayMember).missingLabel, if_pos lacksName]
  · rw [← lackingId, (flows _ lackingMember).missingCondition, if_pos lacks]
  · rw [← guardedId, (flows _ guardedMember).missingCondition, if_neg lacksNot]
  · rw [← joiningId, (judged _ joiningMember).fakeJoin, if_pos joins]
  · rw [← otherId, (judged _ otherMember).fakeJoin, if_neg joinsNot]

end BusinessProcess
