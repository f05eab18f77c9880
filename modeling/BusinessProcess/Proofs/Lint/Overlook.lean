import BusinessProcess.Proofs.Lint.Fault
import BusinessProcess.Proofs.TimeLimit.View

/-!
# Rules overlook time limits

No built-in rule has anything to say about an element of a time limit, and about every other element
it says what it says in the core of the process. The rules come to this in different ways: most of
them ask for kinds that elements of time limits do not have, some count flows and find too few, and
the rule about duplicates goes by an ending.
-/

namespace BusinessProcess

open TimeLimit

namespace Lint

/-- The rule has nothing to say about elements of reserved ids, and about every other element it
says what it says in the core. -/
structure Rule.Overlooks (reserved : ElementId → Bool) (graph : Graph) (rule : Rule) : Prop where
  hidden : ∀ met, ∀ element ∈ graph.elements, reserved element.id = true →
    rule.check graph met element = ⟨[], none⟩
  seen : ∀ met, (∀ other ∈ met, other ∈ graph.elements) → ∀ element ∈ graph.elements,
    reserved element.id = false → rule.check (graph.core reserved)
        (met.filterMap (graph.coreElement? reserved))
        (element.mapNode (graph.coreNode reserved)) = rule.check graph met element

namespace Rule

variable {reserved : ElementId → Bool} {graph : Graph}

theorem overlooks_ofCheck {name : String} {code : Code}
    {check : Graph → Element → Except RuleFault (List Remark)}
    (hidden : ∀ element ∈ graph.elements, reserved element.id = true →
      check graph element = .ok [])
    (seen : ∀ element ∈ graph.elements, reserved element.id = false →
      check (graph.core reserved) (element.mapNode (graph.coreNode reserved)) =
        check graph element) : (ofCheck name code check).Overlooks reserved graph where
  hidden := by
    intro met element member isReserved
    simp only [ofCheck, hidden element member isReserved]
  seen := by
    intro met _ element member unreserved
    simp only [ofCheck, seen element member unreserved]

theorem overlooks_ofNodeCheck {name : String} {code : Code} {check : Graph → Node → List Remark}
    (hidden : ∀ node ∈ graph.nodes, reserved node.id = true → check graph node = [])
    (seen : ∀ node ∈ graph.nodes, reserved node.id = false →
      check (graph.core reserved) (graph.coreNode reserved node) = check graph node) :
    (ofNodeCheck name code check).Overlooks reserved graph := by
  refine overlooks_ofCheck (fun element member isReserved => ?_) fun element member unreserved => ?_
  · cases element with
    | flow flow => rfl
    | node node => exact congrArg _ (hidden node (Graph.node_mem_elements.1 member) isReserved)
  · cases element with
    | flow flow => rfl
    | node node => exact congrArg _ (seen node (Graph.node_mem_elements.1 member) unreserved)

@[simp] theorem remarkIf_false (node : Node) (message : String) :
    remarkIf false node message = [] :=
  rfl

@[simp] theorem remarkIf_coreNode (due : Bool) (node : Node) (message : String) :
    remarkIf due (graph.coreNode reserved node) message = remarkIf due node message := by
  rw [remarkIf, remarkIf, Graph.id_coreNode]

/-- A rule that makes one remark on each node that is due for it overlooks time limits if no node of
one is due for it. -/
theorem overlooks_remarkIf {name : String} {code : Code} {due : Graph → Node → Bool}
    {message : Node → String}
    (hidden : ∀ node ∈ graph.nodes, reserved node.id = true → due graph node = false)
    (seen : ∀ node ∈ graph.nodes, reserved node.id = false →
      due (graph.core reserved) (graph.coreNode reserved node) = due graph node)
    (sameMessage : ∀ node, message (graph.coreNode reserved node) = message node) :
    (ofNodeCheck name code fun graph node =>
      remarkIf (due graph node) node (message node)).Overlooks reserved graph := by
  refine overlooks_ofNodeCheck (fun node member isReserved => ?_) fun node member unreserved => ?_
  · rw [hidden node member isReserved, remarkIf_false]
  · rw [seen node member unreserved, remarkIf_coreNode, sameMessage]

end Rule

/-! ## Nodes of time limits -/

section LimitNode

variable {graph : Graph} {node : Node} (limitNode : LimitNode graph node)
include limitNode

theorem kind_of_limitNode : node.kind = .event .boundary ∨ node.kind = .task .service := by
  cases limitNode with
  | event _ kind => exact .inl kind
  | service _ kind => exact .inr kind

theorem length_incoming_of_limitNode : node.incoming.length ≤ 1 := by
  cases limitNode with
  | event _ _ _ nothing =>
      rw [nothing]
      exact Nat.zero_le 1
  | service _ _ only => exact only.length_le

theorem isStart_of_limitNode : Rule.isStart node = false := by
  rcases kind_of_limitNode limitNode with kind | kind <;> simp [Rule.isStart, kind]

theorem isEnd_of_limitNode : Rule.isEnd node = false := by
  rcases kind_of_limitNode limitNode with kind | kind <;> simp [Rule.isEnd, kind]

theorem isBlankStart_of_limitNode : Rule.isBlankStart node = false := by
  rw [Rule.isBlankStart, isStart_of_limitNode limitNode, Bool.false_and]

theorem isTypedStart_of_limitNode : Rule.isTypedStart node = false := by
  rw [Rule.isTypedStart, isStart_of_limitNode limitNode, Bool.false_and]

theorem isGateway_of_limitNode : node.kind.isGateway = false := by
  rcases kind_of_limitNode limitNode with kind | kind <;> simp [NodeKind.isGateway, kind]

end LimitNode

namespace Rule

variable {reserved : ElementId → Bool} {graph : Graph}

@[simp] theorem isStart_coreNode (node : Node) :
    isStart (graph.coreNode reserved node) = isStart node := by
  rw [isStart, isStart, Graph.kind_coreNode]

@[simp] theorem isEnd_coreNode (node : Node) :
    isEnd (graph.coreNode reserved node) = isEnd node := by
  rw [isEnd, isEnd, Graph.kind_coreNode]

@[simp] theorem isBlankStart_coreNode (node : Node) :
    isBlankStart (graph.coreNode reserved node) = isBlankStart node := by
  rw [isBlankStart, isBlankStart, isStart_coreNode, Graph.definitions_coreNode]

@[simp] theorem isTypedStart_coreNode (node : Node) :
    isTypedStart (graph.coreNode reserved node) = isTypedStart node := by
  rw [isTypedStart, isTypedStart, isStart_coreNode, Graph.definitions_coreNode]

@[simp] theorem isTaskOrEvent_coreNode (node : Node) :
    isTaskOrEvent (graph.coreNode reserved node) = isTaskOrEvent node := by
  rw [isTaskOrEvent, isTaskOrEvent, Graph.kind_coreNode]

variable (layered : Layered reserved graph)
include layered

/-! ## Rules about scopes -/

/-- Of the children of a node the core shows those that are asked for, if nodes of time limits are
not asked for. -/
theorem filter_childNodes_core {id : ElementId} (unreserved : reserved id = false)
    {asked : Node → Bool} (hidden : ∀ child, LimitNode graph child → asked child = false)
    (same : ∀ child, asked (graph.coreNode reserved child) = asked child) :
    ((graph.core reserved).childNodes id).filter asked =
      ((graph.childNodes id).filter asked).map (graph.coreNode reserved) := by
  rw [Graph.childNodes_core unreserved, List.filter_map, List.filter_filter]
  refine congrArg _ (List.filter_congr fun child isChild => ?_)
  have member := (layered.wellFormed.mem_childNodes.1 isChild).1
  rw [Function.comp_apply, same]
  cases isReserved : reserved child.id with
  | false => simp
  | true => simp [hidden child (layered.nodes child member isReserved)]

theorem countP_childNodes_core {id : ElementId} (unreserved : reserved id = false)
    {asked : Node → Bool} (hidden : ∀ child, LimitNode graph child → asked child = false)
    (same : ∀ child, asked (graph.coreNode reserved child) = asked child) :
    ((graph.core reserved).childNodes id).countP asked = (graph.childNodes id).countP asked := by
  rw [List.countP_eq_length_filter, filter_childNodes_core layered unreserved hidden same,
    List.length_map, List.countP_eq_length_filter]

/-- A rule that every scope has a certain node overlooks time limits. -/
theorem overlooks_ofMissing {name : String} {code : Code} {asked : Node → Bool} {what : String}
    (hidden : ∀ child, LimitNode graph child → asked child = false)
    (same : ∀ child, asked (graph.coreNode reserved child) = asked child) :
    (ofNodeCheck name code fun graph node =>
      remarkIf (node.kind.isContainer && !(graph.childNodes node.id).any asked) node
        (scopeName node.kind ++ what)).Overlooks reserved graph := by
  refine overlooks_remarkIf (fun node member isReserved => ?_) (fun node _ unreserved => ?_)
    fun node => ?_
  · rw [(layered.nodes node member isReserved).holdsNothing, Bool.false_and]
  · have held : ((graph.core reserved).childNodes node.id).any asked =
        (graph.childNodes node.id).any asked := by
      rw [Bool.eq_iff_iff, List.any_eq_true, List.any_eq_true, ← List.countP_pos_iff,
        ← List.countP_pos_iff, countP_childNodes_core layered unreserved hidden same]
    rw [Graph.kind_coreNode, Graph.id_coreNode, held]
  · rw [Graph.kind_coreNode]

/-- A rule about some of the nodes in sub-processes of one kind overlooks time limits. -/
theorem overlooks_ofStarts {name : String} {code : Code} {isEventSubProcess : Bool}
    {asked : Node → Bool} {message : String}
    (hidden : ∀ child, LimitNode graph child → asked child = false)
    (same : ∀ child, asked (graph.coreNode reserved child) = asked child) :
    (ofNodeCheck name code fun graph node =>
      if node.kind = .subProcess isEventSubProcess then
        ((graph.childNodes node.id).filter asked).map fun start => ⟨start.id, message⟩
      else []).Overlooks reserved graph := by
  refine overlooks_ofNodeCheck (fun node member isReserved => ?_) fun node _ unreserved => ?_
  · rcases kind_of_limitNode (layered.nodes node member isReserved) with kind | kind <;> simp [kind]
  · rw [Graph.kind_coreNode, Graph.id_coreNode,
      filter_childNodes_core layered unreserved hidden same, List.map_map]
    simp only [Function.comp_def, Graph.id_coreNode]

theorem overlooks_singleBlankStartEvent : singleBlankStartEvent.Overlooks reserved graph := by
  refine overlooks_remarkIf (fun node member isReserved => ?_) (fun node _ unreserved => ?_)
    fun node => ?_
  · rw [(layered.nodes node member isReserved).holdsNothing, Bool.false_and]
  · rw [Graph.kind_coreNode, Graph.id_coreNode,
      countP_childNodes_core layered unreserved (fun _ => isBlankStart_of_limitNode)
        isBlankStart_coreNode]
  · rw [Graph.kind_coreNode]

/-! ## Rules about traits of a node -/

/-- A rule that goes by the kind, the references and the definitions of a node overlooks time limits
if no node of one is due for a remark. -/
theorem overlooks_ofTraits {name : String} {code : Code} {due : Node → Bool} {message : String}
    (hidden : ∀ node, LimitNode graph node → due node = false)
    (same : ∀ node shown : Node, shown.kind = node.kind → shown.incoming = node.incoming →
      shown.outgoing = node.outgoing → shown.definitions = node.definitions →
        due shown = due node) :
    (ofNodeCheck name code fun _ node => remarkIf (due node) node message).Overlooks
      reserved graph := by
  refine overlooks_remarkIf (fun node member isReserved => ?_) (fun node _ unreserved => ?_)
    fun _ => rfl
  · exact hidden node (layered.nodes node member isReserved)
  · obtain ⟨incoming, outgoing⟩ := layered.references_core unreserved
    exact same node _ (Graph.kind_coreNode node) incoming outgoing (Graph.definitions_coreNode node)

theorem overlooks_singleEventDefinition : singleEventDefinition.Overlooks reserved graph := by
  refine overlooks_ofTraits layered (fun node limitNode => ?_)
    fun node shown kind _ _ definitions => by rw [kind, definitions]
  cases limitNode with
  | event _ _ single => simp [Nat.not_lt.2 single]
  | service _ kind => simp [kind, NodeKind.isEvent]

theorem overlooks_fakeJoin : fakeJoin.Overlooks reserved graph := by
  refine overlooks_ofTraits layered (fun node limitNode => ?_)
    fun node shown kind incoming _ _ => by rw [isTaskOrEvent, isTaskOrEvent, kind, incoming]
  simp [Nat.not_lt.2 (length_incoming_of_limitNode limitNode)]

theorem overlooks_disallowKind {name : String} {code : Code} {kind : GatewayKind} :
    (disallowKind name code (.gateway kind)).Overlooks reserved graph := by
  refine overlooks_ofTraits layered (fun node limitNode => ?_)
    fun node shown kind _ _ _ => by rw [kind]
  rcases kind_of_limitNode limitNode with same | same <;> simp [same]

theorem overlooks_noGatewayJoinFork : noGatewayJoinFork.Overlooks reserved graph := by
  refine overlooks_ofTraits layered (fun node limitNode => ?_)
    fun node shown kind incoming outgoing _ => by rw [kind, incoming, outgoing]
  simp [isGateway_of_limitNode limitNode]

theorem overlooks_superfluousGateway : superfluousGateway.Overlooks reserved graph := by
  refine overlooks_ofTraits layered (fun node limitNode => ?_)
    fun node shown kind incoming outgoing _ => by rw [kind, incoming, outgoing]
  simp [isGateway_of_limitNode limitNode]

/-! ## Rules about flows -/

theorem overlooks_conditionalFlows (unreferenced : Unreferenced reserved graph) :
    conditionalFlows.Overlooks reserved graph := by
  refine overlooks_ofCheck (fun element member isReserved => ?_) fun element member unreserved => ?_
  · cases element with
    | flow flow => rfl
    | node node =>
        obtain ⟨flows, found, _, unguarded⟩ :=
          layered.outgoing_of_reserved (Graph.node_mem_elements.1 member) isReserved
        have none : flows.any SequenceFlow.isGuarded = false :=
          List.any_eq_false.2 fun flow drawn => by simp [unguarded flow drawn]
        simp only [found, none]
        split <;> rfl
  · cases element with
    | flow flow => rfl
    | node node =>
        have shown := layered.outgoing_core (Graph.node_mem_elements.1 member) unreferenced
          unreserved
        simp only [Element.mapNode, Graph.id_coreNode, (layered.references_core unreserved).2,
          shown]

theorem overlooks_noImplicitSplit (unreferenced : Unreferenced reserved graph) :
    noImplicitSplit.Overlooks reserved graph := by
  refine overlooks_ofCheck (fun element member isReserved => ?_) fun element member unreserved => ?_
  · cases element with
    | flow flow => rfl
    | node node =>
        obtain ⟨flows, found, single, _⟩ :=
          layered.outgoing_of_reserved (Graph.node_mem_elements.1 member) isReserved
        have few : ¬ flows.countP (fun flow => !flow.isGuarded) > 1 :=
          Nat.not_lt.2 (List.countP_le_length.trans single)
        simp only [found, few, decide_false, remarkIf_false]
        split <;> rfl
  · cases element with
    | flow flow => rfl
    | node node =>
        have shown := layered.outgoing_core (Graph.node_mem_elements.1 member) unreferenced
          unreserved
        simp only [Element.mapNode, isTaskOrEvent_coreNode, Graph.id_coreNode, shown,
          remarkIf_coreNode]

/-- The flows that are compared are those of the core, since the exempt ending is that of the flows
of time limits. -/
theorem comparedFlow?_core {element : Element} (member : element ∈ graph.elements) :
    (graph.coreElement? reserved element).bind comparedFlow? = comparedFlow? element := by
  cases isReserved : reserved element.id with
  | false =>
      rw [Graph.coreElement?_of_unreserved isReserved]
      cases element <;> rfl
  | true =>
      rw [Graph.coreElement?_of_reserved isReserved]
      cases element with
      | node node => rfl
      | flow flow =>
          have limitFlow := layered.flows flow (Graph.flow_mem_elements.1 member) isReserved
          exact (if_pos limitFlow.endsWith).symm

theorem overlooks_noDuplicateSequenceFlows :
    noDuplicateSequenceFlows.Overlooks reserved graph where
  hidden := by
    intro met element member isReserved
    have compared := comparedFlow?_core layered member
    rw [Graph.coreElement?_of_reserved isReserved] at compared
    simp only [noDuplicateSequenceFlows, ← compared, Option.bind_none]
  seen := by
    intro met known element member unreserved
    have compared := comparedFlow?_core layered member
    rw [Graph.coreElement?_of_unreserved unreserved, Option.bind_some] at compared
    have before : (met.filterMap (graph.coreElement? reserved)).filterMap comparedFlow? =
        met.filterMap comparedFlow? := by
      rw [List.filterMap_filterMap]
      exact List.filterMap_congr fun other isMet => comparedFlow?_core layered (known other isMet)
    simp only [noDuplicateSequenceFlows, compared, before]

/-! ## Rules about names and connections -/

theorem overlooks_labelRequired : labelRequired.Overlooks reserved graph := by
  refine overlooks_ofCheck (fun element member isReserved => ?_) fun element member unreserved => ?_
  · cases element with
    | flow flow =>
        have limitFlow := layered.flows flow (Graph.flow_mem_elements.1 member) isReserved
        simp [limitFlow.condition]
    | node node =>
        have limitNode := layered.nodes node (Graph.node_mem_elements.1 member) isReserved
        rcases kind_of_limitNode limitNode with kind | kind <;> simp [needsName, kind]
  · cases element with
    | flow flow => rfl
    | node node =>
        have needed : needsName (graph.coreNode reserved node) = needsName node := by
          unfold needsName
          rw [Graph.kind_coreNode, (layered.references_core unreserved).2]
        simp only [Element.mapNode, Element.name, Element.id, needed, Graph.name_coreNode,
          Graph.id_coreNode]
        rfl

theorem inEventScope_core {node : Node} (member : node ∈ graph.nodes)
    (unreserved : reserved node.id = false) :
    inEventScope (graph.core reserved) (graph.coreNode reserved node) =
      inEventScope graph node := by
  have around : (graph.core reserved).ancestors node.id =
      (graph.ancestors node.id).map (graph.coreNode reserved) :=
    layered.ancestors_core (Graph.node_mem_elements.2 member) unreserved
  rw [inEventScope, inEventScope, Graph.kind_coreNode, Graph.id_coreNode, around, List.any_map]
  simp only [Function.comp_def, Graph.kind_coreNode]

theorem overlooks_noDisconnected (unreferenced : Unreferenced reserved graph) :
    noDisconnected.Overlooks reserved graph := by
  refine overlooks_ofNodeCheck (fun node member isReserved => ?_) fun node member unreserved => ?_
  · rcases kind_of_limitNode (layered.nodes node member isReserved) with kind | kind <;>
      simp [isStructural, kind]
  · obtain ⟨incoming, outgoing⟩ := layered.references_core unreserved
    have entered : isEntered (graph.core reserved) (graph.coreNode reserved node) =
        isEntered graph node := by
      rw [isEntered, isEntered, incoming, Graph.id_coreNode, layered.flowsInto_core unreserved,
        Graph.any_flow?_core fun reference referred =>
          layered.reference_unreserved member unreferenced unreserved (.inl referred)]
    have left : isLeft (graph.core reserved) (graph.coreNode reserved node) =
        isLeft graph node := by
      rw [isLeft, isLeft, outgoing, Graph.id_coreNode, layered.flowsFrom_core unreserved,
        Graph.any_flow?_core fun reference referred =>
          layered.reference_unreserved member unreferenced unreserved (.inr referred)]
    have introduced : introduce (graph.coreNode reserved node) = introduce node := by
      funext message
      rw [introduce, introduce, Graph.kind_coreNode, Graph.name_coreNode]
    rw [Graph.kind_coreNode, inEventScope_core layered member unreserved, entered, left, introduced]
    simp only [remarkIf_coreNode]

/-- Every built-in rule overlooks time limits. -/
theorem overlooks_recommended (unreferenced : Unreferenced reserved graph) :
    ∀ entry ∈ Registry.recommendedRules, entry.1.Overlooks reserved graph := by
  simp only [Registry.recommendedRules, List.forall_mem_cons]
  exact ⟨overlooks_conditionalFlows layered unreferenced,
    overlooks_ofMissing layered (fun _ => isEnd_of_limitNode) isEnd_coreNode,
    overlooks_ofStarts layered (fun _ => isBlankStart_of_limitNode) isBlankStart_coreNode,
    overlooks_fakeJoin layered, overlooks_labelRequired layered, overlooks_disallowKind layered,
    overlooks_noDisconnected layered unreferenced, overlooks_noDuplicateSequenceFlows layered,
    overlooks_noGatewayJoinFork layered, overlooks_noImplicitSplit layered unreferenced,
    overlooks_disallowKind layered, overlooks_singleBlankStartEvent layered,
    overlooks_singleEventDefinition layered,
    overlooks_ofMissing layered (fun _ => isStart_of_limitNode) isStart_coreNode,
    overlooks_ofStarts layered (fun _ => isTypedStart_of_limitNode) isTypedStart_coreNode,
    overlooks_superfluousGateway layered, fun _ absent => absurd absent List.not_mem_nil⟩

end Rule

end Lint

end BusinessProcess
