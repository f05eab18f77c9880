import BusinessProcess.Proofs.Graph.Subtree
import BusinessProcess.Proofs.History.Integrity

/-!
# Removals from every process

Whatever a process has been through, the removal of a node takes along the nodes that lie in it and
the flows that touch any of them, and leaves all else as and where it was.
-/

namespace BusinessProcess

/-- A node that stands alone may be added to every reached process. -/
theorem Reached.addAlone {policy : Policy} {root : ElementId} {ledger : Ledger}
    (reached : Reached policy root ledger) (parent id : ElementId) (kind : NodeKind) :
    Reached policy root (ledger.record (.addNode parent (.alone id kind))) :=
  .edit reached (.fresh id kind ⟨rfl, rfl, rfl, rfl, fun _ => ⟨rfl, rfl⟩⟩)

/-- Where references may be brought along, any node may be added that has no place in a process. -/
theorem Reached.addUnattached {unlinkedFlows : Bool} {root : ElementId} {ledger : Ledger}
    (reached : Reached ⟨true, unlinkedFlows⟩ root ledger) (parent : ElementId) {node : Node}
    (noParent : node.parent = none) (noChildren : node.children = []) :
    Reached ⟨true, unlinkedFlows⟩ root (ledger.record (.addNode parent node)) :=
  .edit reached
    (.fresh node.id node.kind ⟨rfl, rfl, noParent, noChildren, fun none => nomatch none⟩)

/-- In every reached process the removal of the root is refused and that of an unknown node finds
nothing, and both change nothing. Any other node goes with the nodes that have it among their
ancestors and with the flows that start, end or lie in one of these, and it comes back without
children and without references to the flows that joined it. -/
theorem Reached.removeNode_severs {policy : Policy} {root : ElementId} {ledger : Ledger}
    (reached : Reached policy root ledger) (id : ElementId) :
    (id = ledger.graph.root → ledger.graph.removeNode id = .error (.rootRemoval id)) ∧
    (ledger.graph.node? id = none → ledger.graph.removeNode id = .ok (none, ledger.graph)) ∧
    (id = ledger.graph.root ∨ ledger.graph.node? id = none →
      (Edit.removeNode id).run ledger.graph = ledger.graph) ∧
    ∀ node, ledger.graph.node? id = some node → id ≠ ledger.graph.root → ∃ returned left,
      ledger.graph.removeNode id = .ok (some returned, left) ∧
        ledger.graph.Severs node returned left := by
  have wellFormed := reached.sound.wellFormed
  have rootIsNode : ledger.graph.node? ledger.graph.root ≠ none := by
    obtain ⟨top, member, isTop, _⟩ := wellFormed.rooted
    rw [← isTop, Graph.node?_of_mem wellFormed.distinct member]
    exact Option.some_ne_none top
  simp only [Edit.run]
  rcases wellFormed.removeNode_cases id with ⟨isRoot, refused⟩ | ⟨absent, missing⟩ |
    ⟨node, member, rfl, notRoot, _⟩
  · rw [refused, isRoot]
    exact ⟨fun _ => rfl, fun absent => absurd absent rootIsNode, fun _ => rfl,
      fun _ _ other => absurd rfl other⟩
  · rw [missing]
    refine ⟨fun isRoot => absurd (isRoot ▸ absent) rootIsNode, fun _ => rfl, fun _ => rfl, ?_⟩
    rintro node found
    cases absent.symm.trans found
  · have found := Graph.node?_of_mem wellFormed.distinct member
    refine ⟨fun isRoot => absurd isRoot notRoot, fun absent => ?_, fun unchanged => ?_, ?_⟩
    · cases found.symm.trans absent
    · rcases unchanged with isRoot | absent
      · exact absurd isRoot notRoot
      · cases found.symm.trans absent
    · rintro other isOther _
      obtain rfl := Option.some.inj (found.symm.trans isOther)
      exact wellFormed.severs_of_removeNode member notRoot

/-- A sub-process goes with the task in it, with a flow in it between tasks outside and with the
flows across its border. What comes back for it keeps a reference that was stale before. -/
theorem severs_of_scope : ∃ ledger, Reached ⟨true, true⟩ ⟨"P"⟩ ledger ∧
    ledger.graph.ids = [⟨"P"⟩, ⟨"S"⟩, ⟨"T"⟩, ⟨"U"⟩, ⟨"V"⟩, ⟨"F"⟩, ⟨"G"⟩, ⟨"H"⟩, ⟨"I"⟩] ∧
    ∃ scope returned left, ledger.graph.node? ⟨"S"⟩ = some scope ∧
      scope.incoming = [⟨"ghost"⟩, ⟨"H"⟩] ∧
      ledger.graph.removeNode ⟨"S"⟩ = .ok (some returned, left) ∧
      ledger.graph.Severs scope returned left ∧ returned.incoming = [⟨"ghost"⟩] ∧
      left.ids = [⟨"P"⟩, ⟨"U"⟩, ⟨"V"⟩, ⟨"I"⟩] := by
  let scope : Node := { Node.alone ⟨"S"⟩ (.subProcess false) with incoming := [⟨"ghost"⟩] }
  let built := ((((((((Ledger.new ⟨"P"⟩).record (.addNode ⟨"P"⟩ scope)).record
    (.addNode ⟨"S"⟩ (.alone ⟨"T"⟩ (.task .user)))).record
    (.addNode ⟨"P"⟩ (.alone ⟨"U"⟩ (.task .user)))).record
    (.addNode ⟨"P"⟩ (.alone ⟨"V"⟩ (.task .user)))).record
    (.addFlow ⟨"S"⟩ (.between ⟨"F"⟩ ⟨"U"⟩ ⟨"V"⟩))).record
    (.addFlow ⟨"P"⟩ (.between ⟨"G"⟩ ⟨"T"⟩ ⟨"U"⟩))).record
    (.addFlow ⟨"P"⟩ (.between ⟨"H"⟩ ⟨"U"⟩ ⟨"S"⟩))).record
    (.addFlow ⟨"P"⟩ (.between ⟨"I"⟩ ⟨"U"⟩ ⟨"V"⟩))
  have isScope : Reached ⟨true, true⟩ ⟨"P"⟩ ((Ledger.new ⟨"P"⟩).record (.addNode ⟨"P"⟩ scope)) :=
    .edit .new (.fresh ⟨"S"⟩ (.subProcess false) ⟨rfl, rfl, rfl, rfl, fun raw => nomatch raw⟩)
  have isBuilt : Reached ⟨true, true⟩ ⟨"P"⟩ built :=
    .edit (.edit (.edit (.edit (((isScope.addAlone _ _ _).addAlone _ _ _).addAlone _ _ _)
      trivial) trivial) trivial) trivial
  have there : (built.graph.node? ⟨"S"⟩).map Node.incoming = some [⟨"ghost"⟩, ⟨"H"⟩] := by
    decide
  obtain ⟨found, isFound, incoming⟩ := Option.map_eq_some_iff.1 there
  obtain ⟨returned, left, removed, severs⟩ :=
    (isBuilt.removeNode_severs ⟨"S"⟩).2.2.2 found isFound (by decide)
  have isLeft : (Edit.removeNode ⟨"S"⟩).run built.graph = left := by
    simp only [Edit.run, removed]
  have isReturned : (Edit.removeNode ⟨"S"⟩).returned? built.graph = some returned := by
    simp only [Edit.returned?, removed]
  have references : ((Edit.removeNode ⟨"S"⟩).returned? built.graph).map Node.incoming =
      some [⟨"ghost"⟩] := by
    decide
  rw [isReturned] at references
  refine ⟨built, isBuilt, by decide, found, returned, left, isFound, incoming, removed, severs,
    Option.some.inj references, ?_⟩
  rw [← isLeft]
  decide

end BusinessProcess
