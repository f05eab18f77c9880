import BusinessProcess.Proofs.Graph.Subtree
import BusinessProcess.Proofs.History.Removal
import BusinessProcess.Proofs.Lint.Remarks

/-!
# What is said about scopes

The rules about scopes look from a container at the nodes that it lists, and the rule about
connections looks at the containers above a node. In a well-formed process both are told by the
parents that nodes name: what names a scope as its parent is listed there once and nowhere else, and
what is above a node is what there is a way down from. So each of these rules says one thing about a
node exactly if the nodes and the flows of the process ask for it.
-/

namespace BusinessProcess

namespace Lint

/-! ## What nodes are asked for -/

/-- Processes and sub-processes are scopes. -/
abbrev IsScope (kind : NodeKind) : Prop :=
  kind = .process ∨ kind = .subProcess false ∨ kind = .subProcess true

/-- A scope is the parent of no event of this kind. -/
abbrev LacksEvent (graph : Graph) (kind : EventKind) (scope : Node) : Prop :=
  IsScope scope.kind ∧
    ¬ ∃ node ∈ graph.nodes, node.parent = some scope.id ∧ node.kind = .event kind

/-- A scope is the parent of two start events without definitions or more. -/
abbrev StartsTwice (graph : Graph) (scope : Node) : Prop :=
  IsScope scope.kind ∧ 2 ≤ graph.nodes.countP fun node =>
    node.parent = some scope.id ∧ node.kind = .event .start ∧ node.definitions = []

/-- The parent of a start event is a sub-process that is triggered by an event, or one that is
not. -/
abbrev StartsSubProcess (graph : Graph) (triggered : Bool) (node : Node) : Prop :=
  node.kind = .event .start ∧
    ∃ scope ∈ graph.nodes, node.parent = some scope.id ∧ scope.kind = .subProcess triggered

/-- The kinds of nodes that need a flow on either side. -/
def connectedKinds : List NodeKind :=
  [.task .user, .callActivity, .subProcess false, .subProcess true, .gateway .exclusive,
    .gateway .parallel, .gateway .inclusive]

/-- A node is an event sub-process or lies in one, on whatever level. -/
def InEventScope (graph : Graph) (node : Node) : Prop :=
  ∃ scope ∈ graph.nodes, scope.kind = .subProcess true ∧
    ∃ depth, graph.Within scope.id depth node.id

/-- A flow enters a node or is one that the node refers to as entering it. -/
abbrev Entered (graph : Graph) (node : Node) : Prop :=
  ∃ flow ∈ graph.flows, flow.target = node.id ∨ flow.id ∈ node.incoming

/-- A flow leaves a node or is one that the node refers to as leaving it. -/
abbrev Left (graph : Graph) (node : Node) : Prop :=
  ∃ flow ∈ graph.flows, flow.source = node.id ∨ flow.id ∈ node.outgoing

/-- What a report says about a node under the codes of scopes and of connections. -/
structure Report.JudgesScopes (report : Report) (translate : Translator) (graph : Graph)
    (node : Node) : Prop where
  missingEndEvent : report.messagesWith .missingEndEvent node.id =
    if LacksEvent graph .finish node then
      [translate (Rule.scopeName node.kind ++ " is missing end event")]
    else []
  missingStartEvent : report.messagesWith .missingStartEvent node.id =
    if LacksEvent graph .start node then
      [translate (Rule.scopeName node.kind ++ " is missing start event")]
    else []
  untypedStartEvent : report.messagesWith .untypedStartEvent node.id =
    if StartsSubProcess graph true node ∧ node.definitions = [] then
      [translate "Start event is missing event definition"]
    else []
  typedStartEvent : report.messagesWith .typedStartEvent node.id =
    if StartsSubProcess graph false node ∧ node.definitions ≠ [] then
      [translate "Start event must be blank"]
    else []
  multipleBlankStarts : report.messagesWith .multipleBlankStarts node.id =
    if StartsTwice graph node then
      [translate (Rule.scopeName node.kind ++ " has multiple blank start events")]
    else []
  multipleDefinitions : report.messagesWith .multipleDefinitions node.id =
    if node.kind.isEvent ∧ 2 ≤ node.definitions.length then
      [translate "Event has multiple event definitions"]
    else []
  /-- Nodes of other kinds and nodes in event sub-processes need no flows. -/
  exempt : node.kind ∉ connectedKinds ∨ InEventScope graph node →
    report.messagesWith .disconnected node.id = []
  /-- Every other node needs a flow on either side. -/
  disconnected : node.kind ∈ connectedKinds → ¬ InEventScope graph node →
    report.messagesWith .disconnected node.id =
      (if Entered graph node then []
        else [translate (Rule.introduce node "Element is not left connected")]) ++
      if Left graph node then []
        else [translate (Rule.introduce node "Element is not right connected")]

/-! ## Child nodes -/

section WellFormed

variable {graph : Graph} (wellFormed : graph.WellFormed)
include wellFormed

/-- Some child node is picked exactly if some node with this parent is. -/
theorem any_childNodes (id : ElementId) (pick : Node → Bool) :
    (graph.childNodes id).any pick = true ↔
      ∃ node ∈ graph.nodes, node.parent = some id ∧ pick node = true := by
  simp only [List.any_eq_true, wellFormed.mem_childNodes, and_assoc]

/-- As many child nodes are picked as nodes with this parent are. -/
theorem countP_childNodes (id : ElementId) (pick : Node → Bool) :
    (graph.childNodes id).countP pick =
      graph.nodes.countP fun node => node.parent = some id ∧ pick node = true := by
  rw [(wellFormed.childNodes_perm id).countP_eq, List.countP_filter]
  simp only [Bool.decide_and, Bool.decide_eq_true, Bool.and_comm]

/-- Of the child nodes one is found by its id. -/
theorem filter_childNodes {child : Node} (present : child ∈ graph.nodes) {id : ElementId}
    (parent : child.parent = some id) :
    (graph.childNodes id).filter (·.id = child.id) = [child] := by
  have distinct : ((graph.childNodes id).map Node.id).Nodup := by
    rw [((wellFormed.childNodes_perm id).map Node.id).nodup_iff]
    exact (List.nodup_append.1 wellFormed.distinct).1.sublist (List.filter_sublist.map Node.id)
  exact filter_of_key distinct (wellFormed.mem_childNodes.2 ⟨present, parent⟩)

end WellFormed

namespace Rule

/-! ## What each rule says -/

theorem isContainer_iff_isScope (kind : NodeKind) : kind.isContainer = true ↔ IsScope kind := by
  cases kind with
  | subProcess triggered => cases triggered <;> decide
  | _ => simp [NodeKind.isContainer, IsScope]

theorem isStructural_iff (kind : NodeKind) :
    isStructural kind = true ↔ kind ∈ connectedKinds := by
  unfold isStructural connectedKinds
  split <;> simp_all

theorem isEventSubProcess_iff (kind : NodeKind) :
    kind.isEventSubProcess = true ↔ kind = .subProcess true := by
  cases kind <;> simp [NodeKind.isEventSubProcess]

theorem isBlankStart_iff (node : Node) :
    isBlankStart node = true ↔ node.kind = .event .start ∧ node.definitions = [] := by
  simp [isBlankStart, isStart]

theorem isTypedStart_iff (node : Node) :
    isTypedStart node = true ↔ node.kind = .event .start ∧ node.definitions ≠ [] := by
  simp [isTypedStart, isStart]

/-- The remark that is made on a node if it is due. -/
theorem map_message_remarkIf (due : Bool) (node : Node) (message : String) :
    (remarkIf due node message).map Remark.message = if due then [message] else [] := by
  cases due <;> rfl

theorem element_of_mem_remarkIf {due : Bool} {node : Node} {message : String} {remark : Remark}
    (made : remark ∈ remarkIf due node message) : remark.element = node.id := by
  cases due with
  | false => cases made
  | true => rw [List.mem_singleton.1 made]

/-- The same remark on each child node that is picked, made for the containers of one kind. -/
def childRemarks (kind : NodeKind) (pick : Node → Bool) (message : String) (graph : Graph)
    (scope : Node) : List Remark :=
  if scope.kind = kind then
    ((graph.childNodes scope.id).filter pick).map fun child => ⟨child.id, message⟩
  else []

theorem messagesAbout_childRemarks (kind : NodeKind) (pick : Node → Bool) (message : String)
    (graph : Graph) (scope : Node) (id : ElementId) :
    messagesAbout (childRemarks kind pick message graph scope) id =
      if scope.kind = kind then
        (((graph.childNodes scope.id).filter (·.id = id)).filter pick).map fun _ => message
      else [] := by
  unfold childRemarks
  split
  next =>
    rw [messagesAbout, List.filter_map, List.map_map, List.filter_comm]
    rfl
  next => rfl

section WellFormed

variable {graph : Graph} (wellFormed : graph.WellFormed)
include wellFormed

/-- Nothing is remarked on what is not a child. -/
theorem messagesAbout_childRemarks_eq_nil (kind : NodeKind) (pick : Node → Bool) (message : String)
    {scope : Node} {id : ElementId}
    (noChild : ∀ node ∈ graph.nodes, node.parent = some scope.id → node.id ≠ id) :
    messagesAbout (childRemarks kind pick message graph scope) id = [] := by
  have nothing : (graph.childNodes scope.id).filter (·.id = id) = [] := by
    apply List.filter_eq_nil_iff.2
    intro child isChild same
    obtain ⟨present, parent⟩ := wellFormed.mem_childNodes.1 isChild
    exact noChild child present parent (of_decide_eq_true same)
  rw [messagesAbout_childRemarks, nothing]
  exact ite_self []

/-- A rule that remarks on child nodes says it about the nodes that are picked and have a container
of the kind as their parent. -/
theorem tells_childRemarks {name message : String} {code : Code} {kind : NodeKind}
    {pick : Node → Bool} :
    (ofNodeCheck name code (childRemarks kind pick message)).Tells graph fun node =>
      if pick node ∧ ∃ scope ∈ graph.nodes, node.parent = some scope.id ∧ scope.kind = kind then
        [message]
      else [] := by
  constructor
  · intro node present
    by_cases inside : ∃ scope ∈ graph.nodes, node.parent = some scope.id
    · obtain ⟨scope, isScope, parent⟩ := inside
      -- Only its own parent lists the node, so what the rule says comes from this scope alone.
      have others : ∀ other ∈ graph.nodes, other.id ≠ scope.id →
          messagesAbout (childRemarks kind pick message graph other) node.id = [] := by
        intro other _ differs
        apply messagesAbout_childRemarks_eq_nil wellFormed
        intro child isNode childParent same
        rw [wellFormed.node_eq isNode present same, parent] at childParent
        exact differs (Option.some.inj childParent).symm
      have ofKind : (∃ other ∈ graph.nodes, node.parent = some other.id ∧ other.kind = kind) ↔
          scope.kind = kind := by
        constructor
        · rintro ⟨other, isOther, otherParent, rfl⟩
          have same : scope.id = other.id := Option.some.inj (parent.symm.trans otherParent)
          rw [wellFormed.node_eq isScope isOther same]
        · intro same
          exact ⟨scope, isScope, parent, same⟩
      rw [messagesAbout_ofNodeCheck wellFormed isScope others, messagesAbout_childRemarks,
        filter_childNodes wellFormed present parent, List.filter_singleton]
      simp only [ofKind]
      by_cases isKind : scope.kind = kind <;> cases pick node <;> simp [isKind]
    · rw [messagesAbout_ofNodeCheck_eq_nil wellFormed, if_neg]
      · rintro ⟨_, scope, isScope, parent, _⟩
        exact inside ⟨scope, isScope, parent⟩
      · intro scope isScope
        apply messagesAbout_childRemarks_eq_nil wellFormed
        intro child isNode childParent same
        rw [wellFormed.node_eq isNode present same] at childParent
        exact inside ⟨scope, isScope, childParent⟩
  · intro id absent
    apply messagesAbout_ofNodeCheck_eq_nil wellFormed
    intro scope _
    apply messagesAbout_childRemarks_eq_nil wellFormed
    intro child isNode _
    exact absent child isNode

theorem tells_eventSubProcessTypedStartEvent :
    eventSubProcessTypedStartEvent.Tells graph fun node =>
      if StartsSubProcess graph true node ∧ node.definitions = [] then
        ["Start event is missing event definition"]
      else [] := by
  have tells : eventSubProcessTypedStartEvent.Tells graph _ := tells_childRemarks wellFormed
  simpa only [isBlankStart_iff, and_right_comm] using tells

theorem tells_subProcessBlankStartEvent :
    subProcessBlankStartEvent.Tells graph fun node =>
      if StartsSubProcess graph false node ∧ node.definitions ≠ [] then
        ["Start event must be blank"]
      else [] := by
  have tells : subProcessBlankStartEvent.Tells graph _ := tells_childRemarks wellFormed
  simpa only [isTypedStart_iff, and_right_comm] using tells

/-- A rule that makes one remark on the nodes that are due for it says it about these nodes. -/
theorem tells_remarkIf {name : String} {code : Code} {due : Graph → Node → Bool}
    {message : Node → String} {asked : Node → Prop} [DecidablePred asked]
    (isAsked : ∀ node ∈ graph.nodes, due graph node = true ↔ asked node) :
    (ofNodeCheck name code fun graph node => remarkIf (due graph node) node (message node)).Tells
      graph fun node => if asked node then [message node] else [] := by
  have tells : (ofNodeCheck name code fun graph node =>
      remarkIf (due graph node) node (message node)).Tells graph _ :=
    tells_ofNodeCheck wellFormed fun _ _ _ made => element_of_mem_remarkIf made
  refine ⟨fun node present => ?_, tells.ofNothingElse⟩
  rw [tells.ofNode node present, map_message_remarkIf, if_congr (isAsked node present) rfl rfl]

/-- A rule that every scope has an event of some kind names the scopes that lack one. -/
theorem tells_ofMissing {name what : String} {code : Code} (kind : EventKind) :
    (ofNodeCheck name code fun graph node =>
      remarkIf (node.kind.isContainer &&
        !(graph.childNodes node.id).any fun child => child.kind = .event kind) node
        (scopeName node.kind ++ what)).Tells graph fun node =>
      if LacksEvent graph kind node then [scopeName node.kind ++ what] else [] := by
  apply tells_remarkIf wellFormed
  intro node _
  rw [Bool.and_eq_true, isContainer_iff_isScope, Bool.not_eq_true', ← Bool.not_eq_true,
    any_childNodes wellFormed]
  simp only [decide_eq_true_eq]

theorem tells_endEventRequired : endEventRequired.Tells graph fun node =>
    if LacksEvent graph .finish node then [scopeName node.kind ++ " is missing end event"]
    else [] :=
  tells_ofMissing wellFormed .finish

theorem tells_startEventRequired : startEventRequired.Tells graph fun node =>
    if LacksEvent graph .start node then [scopeName node.kind ++ " is missing start event"]
    else [] :=
  tells_ofMissing wellFormed .start

theorem tells_singleBlankStartEvent : singleBlankStartEvent.Tells graph fun node =>
    if StartsTwice graph node then [scopeName node.kind ++ " has multiple blank start events"]
    else [] := by
  apply tells_remarkIf wellFormed
  intro node _
  rw [Bool.and_eq_true, isContainer_iff_isScope, decide_eq_true_iff, countP_childNodes wellFormed]
  simp only [isBlankStart_iff]
  exact Iff.rfl

theorem tells_singleEventDefinition : singleEventDefinition.Tells graph fun node =>
    if node.kind.isEvent ∧ 2 ≤ node.definitions.length then
      ["Event has multiple event definitions"]
    else [] := by
  apply tells_remarkIf wellFormed
  intro node _
  rw [Bool.and_eq_true, decide_eq_true_iff]
  exact Iff.rfl

/-! ## Connections -/

/-- The containers above a node and the node itself are where there is a way down from. -/
theorem inEventScope_iff {node : Node} (present : node ∈ graph.nodes) :
    inEventScope graph node = true ↔ InEventScope graph node := by
  rw [inEventScope, Bool.or_eq_true, List.any_eq_true]
  have above := wellFormed.surrounds_ancestors (Graph.node_mem_elements.2 present)
  constructor
  · rintro (isOne | ⟨container, isAbove, isOne⟩)
    · exact ⟨node, present, (isEventSubProcess_iff _).1 isOne, 0, .here⟩
    · exact ⟨container, (above.holders container isAbove).1, (isEventSubProcess_iff _).1 isOne,
        (wellFormed.liesIn_iff present).1 (.inr ⟨container, isAbove, rfl⟩)⟩
  · rintro ⟨scope, isScope, isOne, within⟩
    rcases (wellFormed.liesIn_iff present).2 within with same | ⟨container, isAbove, same⟩
    · rw [wellFormed.node_eq present isScope same]
      exact .inl ((isEventSubProcess_iff _).2 isOne)
    · rw [← wellFormed.node_eq (above.holders container isAbove).1 isScope same] at isOne
      exact .inr ⟨container, isAbove, (isEventSubProcess_iff _).2 isOne⟩

end WellFormed

/-- Flows that have an end at a node or that the node refers to. -/
theorem exists_flow_iff (graph : Graph) (references : List ElementId)
    (tip : SequenceFlow → ElementId) (id : ElementId) :
    (references.any (fun reference => (graph.flow? reference).isSome) ||
        !(graph.flows.filter (tip · = id)).isEmpty) = true ↔
      ∃ flow ∈ graph.flows, tip flow = id ∨ flow.id ∈ references := by
  have drawn : (!(graph.flows.filter (tip · = id)).isEmpty) = true ↔
      ∃ flow ∈ graph.flows, tip flow = id := by
    rw [Bool.not_eq_true', ← Bool.not_eq_true, List.isEmpty_iff, List.filter_eq_nil_iff]
    simp only [decide_eq_true_eq, not_forall, not_not, exists_prop]
  have referred : references.any (fun reference => (graph.flow? reference).isSome) = true ↔
      ∃ flow ∈ graph.flows, flow.id ∈ references := by
    rw [List.any_eq_true]
    constructor
    · rintro ⟨reference, isReference, isDrawn⟩
      obtain ⟨flow, isFlow, rfl⟩ := Graph.flow?_isSome_iff.1 isDrawn
      exact ⟨flow, isFlow, isReference⟩
    · rintro ⟨flow, isFlow, isReference⟩
      exact ⟨flow.id, isReference, Graph.flow?_isSome_iff.2 ⟨flow, isFlow, rfl⟩⟩
  rw [Bool.or_eq_true, drawn, referred, or_comm, ← exists_or]
  simp only [← and_or_left]

theorem isEntered_iff (graph : Graph) (node : Node) :
    isEntered graph node = true ↔ Entered graph node :=
  exists_flow_iff graph node.incoming SequenceFlow.target node.id

theorem isLeft_iff (graph : Graph) (node : Node) :
    isLeft graph node = true ↔ Left graph node :=
  exists_flow_iff graph node.outgoing SequenceFlow.source node.id

/-- The rule about connections says what misses on either side of a node that needs flows. -/
theorem tells_noDisconnected {graph : Graph} (wellFormed : graph.WellFormed) :
    noDisconnected.Tells graph fun node =>
      if isStructural node.kind && !inEventScope graph node then
        (if isEntered graph node then [] else [introduce node "Element is not left connected"]) ++
          if isLeft graph node then [] else [introduce node "Element is not right connected"]
      else [] := by
  have tells : noDisconnected.Tells graph _ := tells_ofNodeCheck wellFormed (by
    intro node _ remark made
    split at made
    next =>
      rcases List.mem_append.1 made with before | behind
      · exact element_of_mem_remarkIf before
      · exact element_of_mem_remarkIf behind
    next => cases made)
  refine ⟨fun node present => ?_, tells.ofNothingElse⟩
  rw [tells.ofNode node present]
  split
  next =>
    rw [List.map_append, map_message_remarkIf, map_message_remarkIf]
    cases isEntered graph node <;> cases isLeft graph node <;> rfl
  next => rfl

end Rule

/-! ## What a run says -/

/-- A run of all built-in rules says nothing of connections where none are needed, and elsewhere what
misses on either side. -/
theorem Registry.AllOn.messagesWith_disconnected {registry : Registry} (allOn : registry.AllOn)
    {graph : Graph} (wellFormed : graph.WellFormed) (translate : Translator) :
    (∀ node ∈ graph.nodes,
      (node.kind ∉ connectedKinds ∨ InEventScope graph node →
        (run registry translate graph).messagesWith .disconnected node.id = []) ∧
      (node.kind ∈ connectedKinds → ¬ InEventScope graph node →
        (run registry translate graph).messagesWith .disconnected node.id =
          (if Entered graph node then []
            else [translate (Rule.introduce node "Element is not left connected")]) ++
          if Left graph node then []
            else [translate (Rule.introduce node "Element is not right connected")])) ∧
      ∀ id, (∀ node ∈ graph.nodes, node.id ≠ id) →
        (run registry translate graph).messagesWith .disconnected id = [] := by
  obtain ⟨connections, noConnections⟩ := allOn.messagesWith_of_tells
    (List.mem_of_getElem?
      (rfl : Registry.recommendedRules[6]? = some (Rule.noDisconnected, .error)))
    (Rule.tells_noDisconnected wellFormed) translate
  refine ⟨fun node present => ⟨fun isExempt => ?_, fun needsFlows outside => ?_⟩, noConnections⟩
  · have notDue : (Rule.isStructural node.kind && !Rule.inEventScope graph node) = false := by
      rw [Bool.and_eq_false_iff, Bool.not_eq_false', ← Bool.not_eq_true,
        Rule.isStructural_iff, Rule.inEventScope_iff wellFormed present]
      exact isExempt
    apply (connections node present).trans
    rw [notDue]
    rfl
  · apply (connections node present).trans
    rw [(Rule.isStructural_iff _).2 needsFlows,
      Bool.eq_false_iff.2 (mt (Rule.inEventScope_iff wellFormed present).1 outside)]
    simp only [Bool.not_false, Bool.and_self, if_true, List.map_append, Rule.isEntered_iff,
      Rule.isLeft_iff, apply_ite (List.map translate), List.map_nil, List.map_cons]

/-- The codes of the rules about scopes and of the rule about connections. -/
def scopeCodes : List Code :=
  [.missingEndEvent, .missingStartEvent, .untypedStartEvent, .typedStartEvent,
    .multipleBlankStarts, .multipleDefinitions, .disconnected]

end Lint

open Lint

/-- In every reached process, however its scopes are nested, a run of all built-in rules says once
of a scope that it lacks a start event, that it lacks an end event or that it has several blank
start events, going by the nodes that name it as their parent, once of a start event that it does
not fit the sub-process that it names as its parent, and once of an event that it has several
definitions. Of a node that needs flows and is in no event sub-process it says once for each side
that no flow of the process is there, be it drawn or referred to. Of any other element it says none
of this. -/
theorem Reached.scopes_judged {policy : Policy} {root : ElementId} {ledger : Ledger}
    (reached : Reached policy root ledger) {registry : Registry} (allOn : registry.AllOn)
    (translate : Translator) :
    let report := run registry translate ledger.graph
    (∀ node ∈ ledger.graph.nodes, report.JudgesScopes translate ledger.graph node) ∧
      ∀ code ∈ scopeCodes, ∀ id, (∀ node ∈ ledger.graph.nodes, node.id ≠ id) →
        report.messagesWith code id = [] := by
  intro report
  have wellFormed := reached.sound.wellFormed
  obtain ⟨ends, noEnds⟩ := allOn.messagesWith_of_tells
    (List.mem_of_getElem?
      (rfl : Registry.recommendedRules[1]? = some (Rule.endEventRequired, .error)))
    (Rule.tells_endEventRequired wellFormed) translate
  obtain ⟨untyped, noUntyped⟩ := allOn.messagesWith_of_tells
    (List.mem_of_getElem?
      (rfl : Registry.recommendedRules[2]? = some (Rule.eventSubProcessTypedStartEvent, .error)))
    (Rule.tells_eventSubProcessTypedStartEvent wellFormed) translate
  obtain ⟨connections, noConnections⟩ :=
    allOn.messagesWith_disconnected wellFormed translate
  obtain ⟨blanks, noBlanks⟩ := allOn.messagesWith_of_tells
    (List.mem_of_getElem?
      (rfl : Registry.recommendedRules[11]? = some (Rule.singleBlankStartEvent, .error)))
    (Rule.tells_singleBlankStartEvent wellFormed) translate
  obtain ⟨definitions, noDefinitions⟩ := allOn.messagesWith_of_tells
    (List.mem_of_getElem?
      (rfl : Registry.recommendedRules[12]? = some (Rule.singleEventDefinition, .error)))
    (Rule.tells_singleEventDefinition wellFormed) translate
  obtain ⟨starts, noStarts⟩ := allOn.messagesWith_of_tells
    (List.mem_of_getElem?
      (rfl : Registry.recommendedRules[13]? = some (Rule.startEventRequired, .error)))
    (Rule.tells_startEventRequired wellFormed) translate
  obtain ⟨typed, noTyped⟩ := allOn.messagesWith_of_tells
    (List.mem_of_getElem?
      (rfl : Registry.recommendedRules[14]? = some (Rule.subProcessBlankStartEvent, .error)))
    (Rule.tells_subProcessBlankStartEvent wellFormed) translate
  constructor
  · intro node present
    obtain ⟨exempt, disconnected⟩ := connections node present
    exact {
      missingEndEvent := (ends node present).trans (apply_ite _ _ _ _)
      missingStartEvent := (starts node present).trans (apply_ite _ _ _ _)
      untypedStartEvent := (untyped node present).trans (apply_ite _ _ _ _)
      typedStartEvent := (typed node present).trans (apply_ite _ _ _ _)
      multipleBlankStarts := (blanks node present).trans (apply_ite _ _ _ _)
      multipleDefinitions := (definitions node present).trans (apply_ite _ _ _ _)
      exempt := exempt
      disconnected := disconnected }
  · simp only [scopeCodes, List.forall_mem_cons]
    exact ⟨noEnds, noStarts, noUntyped, noTyped, noBlanks, noDefinitions, noConnections,
      fun _ none => absurd none List.not_mem_nil⟩

/-- In a sub-process with three start events and an event sub-process: each start event that does
not fit is named, the task in the innermost scope needs no flows, and for the task outside a stale
reference makes no difference. -/
theorem scopes_judged_when_nested :
    let start (id : ElementId) (definitions : List EventDefinition) : Node :=
      { Node.alone id (.event .start) with definitions := definitions }
    let additions : List (ElementId × Node) :=
      [(⟨"P"⟩, .alone ⟨"S"⟩ (.subProcess false)), (⟨"S"⟩, start ⟨"A"⟩ [.message]),
        (⟨"S"⟩, start ⟨"B"⟩ []), (⟨"S"⟩, start ⟨"C"⟩ []),
        (⟨"S"⟩, .alone ⟨"E"⟩ (.subProcess true)), (⟨"E"⟩, start ⟨"D"⟩ []),
        (⟨"E"⟩, .alone ⟨"N"⟩ (.subProcess false)), (⟨"N"⟩, .alone ⟨"T"⟩ (.task .user)),
        (⟨"P"⟩, { Node.alone ⟨"U"⟩ (.task .user) with
          incoming := [⟨"Stale"⟩], outgoing := [⟨"F"⟩] })]
    let ledger := ((Ledger.new ⟨"P"⟩).recordAll
      (additions.map fun addition => .addNode addition.1 addition.2)).record
        (.addFlow ⟨"S"⟩ (.between ⟨"F"⟩ ⟨"A"⟩ ⟨"B"⟩))
    let report := run .recommended id ledger.graph
    Reached ⟨true, true⟩ ⟨"P"⟩ ledger ∧
      report.messagesWith .multipleBlankStarts ⟨"S"⟩ =
        ["Sub process has multiple blank start events"] ∧
      report.messagesWith .typedStartEvent ⟨"A"⟩ = ["Start event must be blank"] ∧
      report.messagesWith .untypedStartEvent ⟨"D"⟩ =
        ["Start event is missing event definition"] ∧
      report.messagesWith .untypedStartEvent ⟨"B"⟩ = [] ∧
      report.messagesWith .disconnected ⟨"T"⟩ = [] ∧
      report.messagesWith .disconnected ⟨"U"⟩ = ["UserTask: Element is not left connected"] := by
  intro start additions ledger report
  have built : Reached ⟨true, true⟩ ⟨"P"⟩ ((Ledger.new ⟨"P"⟩).recordAll
      (additions.map fun addition => .addNode addition.1 addition.2)) := by
    apply Ledger.recordAll_keeps _ .new
    intro before reached edit isEdit
    obtain ⟨⟨parent, node⟩, isAddition, rfl⟩ := List.mem_map.1 isEdit
    have unattached : ∀ addition ∈ additions,
        addition.2.parent = none ∧ addition.2.children = [] := by decide
    obtain ⟨noParent, noChildren⟩ := unattached _ isAddition
    exact reached.addUnattached parent noParent noChildren
  have isReached : Reached ⟨true, true⟩ ⟨"P"⟩ ledger := built.edit trivial
  have wellFormed := isReached.sound.wellFormed
  obtain ⟨judged, _⟩ := isReached.scopes_judged Registry.allOn_recommended id
  obtain ⟨scope, isScope, scopeId, startsTwice, isPlain⟩ : ∃ node ∈ ledger.graph.nodes,
      node.id = ⟨"S"⟩ ∧ StartsTwice ledger.graph node ∧ node.kind = .subProcess false := by
    decide +kernel
  obtain ⟨first, isFirst, firstId, typed⟩ : ∃ node ∈ ledger.graph.nodes, node.id = ⟨"A"⟩ ∧
      StartsSubProcess ledger.graph false node ∧ node.definitions ≠ [] := by
    decide +kernel
  obtain ⟨second, isSecond, secondId, fits⟩ : ∃ node ∈ ledger.graph.nodes, node.id = ⟨"B"⟩ ∧
      ¬ (StartsSubProcess ledger.graph true node ∧ node.definitions = []) := by
    decide +kernel
  obtain ⟨inner, isInner, innerId, untyped⟩ : ∃ node ∈ ledger.graph.nodes, node.id = ⟨"D"⟩ ∧
      StartsSubProcess ledger.graph true node ∧ node.definitions = [] := by
    decide +kernel
  obtain ⟨task, isTask, taskId, isDeep⟩ : ∃ node ∈ ledger.graph.nodes, node.id = ⟨"T"⟩ ∧
      Rule.inEventScope ledger.graph node = true := by
    decide +kernel
  obtain ⟨other, isOther, otherId, isUser, isOutside, notEntered, left, introduced⟩ :
      ∃ node ∈ ledger.graph.nodes, node.id = ⟨"U"⟩ ∧ node.kind ∈ connectedKinds ∧
        Rule.inEventScope ledger.graph node = false ∧ ¬ Entered ledger.graph node ∧
        Left ledger.graph node ∧ Rule.introduce node "Element is not left connected" =
          "UserTask: Element is not left connected" := by
    decide +kernel
  refine ⟨isReached, ?_, ?_, ?_, ?_, ?_, ?_⟩
  · rw [← scopeId, (judged scope isScope).multipleBlankStarts, if_pos startsTwice, isPlain]
    rfl
  · rw [← firstId, (judged first isFirst).typedStartEvent, if_pos typed]
    rfl
  · rw [← innerId, (judged inner isInner).untypedStartEvent, if_pos untyped]
    rfl
  · rw [← secondId, (judged second isSecond).untypedStartEvent, if_neg fits]
  · rw [← taskId]
    exact (judged task isTask).exempt (.inr ((Rule.inEventScope_iff wellFormed isTask).1 isDeep))
  · have outside : ¬ InEventScope ledger.graph other := by
      rw [← Rule.inEventScope_iff wellFormed isOther, isOutside]
      exact Bool.false_ne_true
    rw [← otherId, (judged other isOther).disconnected isUser outside, if_neg notEntered,
      if_pos left, introduced]
    rfl

end BusinessProcess
