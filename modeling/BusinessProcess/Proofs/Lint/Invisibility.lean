import BusinessProcess.Lint.RequiredFields
import BusinessProcess.Proofs.Lint.Overlook
import BusinessProcess.Proofs.TimeLimit.Overlay
import BusinessProcess.Proofs.TimeLimit.Sync

/-!
# Time limits are invisible in reports

Since every built-in rule overlooks time limits, a run makes the same findings in the core of a
process as in the process itself, in the same order. Changes of time limits leave the core as it is,
so whatever time limits are set, the reports stay the same.
-/

namespace BusinessProcess

open TimeLimit

namespace Lint

variable {reserved : ElementId → Bool} {graph : Graph}

/-! ## Runs on the core -/

/-- Nothing is found on an element of a time limit. -/
theorem ActiveRule.findings_hidden {active : ActiveRule}
    (overlooks : active.rule.Overlooks reserved graph) (translate : Translator)
    (met : List Element) {element : Element} (member : element ∈ graph.elements)
    (isReserved : reserved element.id = true) :
    active.findings translate graph met element = [] := by
  simp only [findings, overlooks.hidden met element member isReserved, List.map_nil,
    Option.toList_none, List.append_nil]

/-- On every other element the same is found in the core. -/
theorem ActiveRule.findings_core {active : ActiveRule}
    (overlooks : active.rule.Overlooks reserved graph) (translate : Translator)
    {met : List Element} (known : ∀ other ∈ met, other ∈ graph.elements) {element : Element}
    (member : element ∈ graph.elements) (unreserved : reserved element.id = false) :
    active.findings translate (graph.core reserved)
        (met.filterMap (graph.coreElement? reserved))
        (element.mapNode (graph.coreNode reserved)) =
      active.findings translate graph met element := by
  simp only [findings, overlooks.seen met known element member unreserved,
    Graph.id_mapNode_coreNode]

/-- Rules that overlook time limits find in the core what they find in the process. -/
theorem findingsOn_core {rules : List ActiveRule}
    (overlooked : ∀ active ∈ rules, active.rule.Overlooks reserved graph) (translate : Translator)
    {met elements : List Element} (knownMet : ∀ other ∈ met, other ∈ graph.elements)
    (known : ∀ element ∈ elements, element ∈ graph.elements) :
    findingsOn rules translate (graph.core reserved)
        (met.filterMap (graph.coreElement? reserved))
        (elements.filterMap (graph.coreElement? reserved)) =
      findingsOn rules translate graph met elements := by
  -- What was met before is carried along, since the rule about duplicates looks at it.
  induction elements generalizing met with
  | nil => rfl
  | cons element rest inductionHypothesis =>
      obtain ⟨member, knownRest⟩ := List.forall_mem_cons.1 known
      have later := inductionHypothesis (List.forall_mem_cons.2 ⟨member, knownMet⟩) knownRest
      rw [findingsOn, ← later]
      cases isReserved : reserved element.id with
      | true =>
          have nothing : rules.flatMap (fun active =>
              active.findings translate graph met element) = [] :=
            List.flatMap_eq_nil_iff.2 fun active isActive =>
              active.findings_hidden (overlooked active isActive) translate met member isReserved
          have gone : graph.coreElement? reserved element = none :=
            Graph.coreElement?_of_reserved isReserved
          rw [nothing, List.filterMap_cons_none gone, List.filterMap_cons_none gone,
            List.nil_append]
      | false =>
          have shown : graph.coreElement? reserved element =
              some (element.mapNode (graph.coreNode reserved)) :=
            Graph.coreElement?_of_unreserved isReserved
          have same := List.flatMap_congr fun active (isActive : active ∈ rules) =>
            active.findings_core (overlooked active isActive) translate knownMet member isReserved
          rw [List.filterMap_cons_some shown, List.filterMap_cons_some shown, findingsOn, same]

/-- A run of built-in rules makes the same report on the core as on the process. -/
theorem run_core (layered : Layered reserved graph) (unreferenced : Unreferenced reserved graph)
    {registry : Registry} (builtIn : registry.BuiltIn) (translate : Translator) :
    run registry translate (graph.core reserved) = run registry translate graph := by
  have overlooked : ∀ active ∈ activeRules registry, active.rule.Overlooks reserved graph := by
    intro active isActive
    obtain ⟨severity, isBuiltIn⟩ := builtIn.exists_severity isActive
    exact Rule.overlooks_recommended layered unreferenced _ isBuiltIn
  rw [run, run, layered.walk_core]
  exact congrArg _ (findingsOn_core overlooked translate
    (fun _ absent => absurd absent List.not_mem_nil) fun _ => Graph.mem_elements_of_walk)

/-! ## Required fields of the core -/

/-- The required fields are none of the values kept for time limits. -/
theorem RequiredFields.findings_coreNode (translate : Translator) (task : Node) :
    findings translate (graph.coreNode reserved task) = findings translate task := by
  have filled : ∀ key, isLimitKey key = false →
      (graph.coreNode reserved task).attributes.filled? key = task.attributes.filled? key := by
    intro key other
    rw [Attributes.filled?, Attributes.filled?, Graph.get?_attributes_coreNode task other]
  have same : lacking (graph.coreNode reserved task) = lacking task := by
    simp only [lacking, filled nodeType (by decide), filled approvalType (by decide),
      filled assigneeList (by decide), filled assignmentStrategy (by decide)]
  rw [findings, findings, same, Graph.id_coreNode, Graph.name_coreNode]

/-- The same required fields are missing in the core as in the process. -/
theorem RequiredFields.check_core (layered : Layered reserved graph) (translate : Translator) :
    check translate (graph.core reserved) = check translate graph := by
  have tasks : ((graph.core reserved).nodes.filter fun node => node.kind = .task .user) =
      (graph.nodes.filter fun node => node.kind = .task .user).map (graph.coreNode reserved) := by
    rw [Graph.nodes_core, List.filter_map, List.filter_filter]
    refine congrArg _ (List.filter_congr fun node member => ?_)
    simp only [Function.comp_apply, Graph.kind_coreNode]
    cases isReserved : reserved node.id with
    | false => simp
    | true =>
        rcases kind_of_limitNode (layered.nodes node member isReserved) with kind | kind <;>
          simp [kind]
  rw [check, check, tasks, List.flatMap_map]
  simp only [RequiredFields.findings_coreNode]

end Lint

namespace TimeLimit

open BusinessProcess.Graph

/-! ## Runs of changes -/

/-- The ids of the parts of all time limits of activities of the process. -/
def limitIds (start : Graph) : List ElementId :=
  (start.nodes.filter fun node => node.kind.isActivity).flatMap fun activity =>
    all.flatMap fun limit => [Part.event, .service, .flow].map fun part =>
      part.id limit activity.id

/-- Whether the id is that of a part of a time limit of an activity of the process. -/
def isLimitId (start : Graph) (id : ElementId) : Bool :=
  (limitIds start).contains id

/-- No node of the process refers to a part of a time limit of an activity of the process. -/
def ReferencesApart (start : Graph) : Prop :=
  ∀ node ∈ start.nodes, ∀ reference, reference ∈ node.incoming ∨ reference ∈ node.outgoing →
    Apart start reference

section Start

variable {start : Graph}

theorem isLimitId_iff {id : ElementId} : isLimitId start id = true ↔
    ∃ activity ∈ start.nodes, activity.kind.isActivity = true ∧
      ∃ (limit : TimeLimit) (part : Part), id = part.id limit activity.id := by
  simp only [isLimitId, List.contains_iff_mem, limitIds, List.mem_flatMap, List.mem_filter,
    List.mem_map, and_assoc]
  refine exists_congr fun activity => and_congr_right fun _ => and_congr_right fun _ => ?_
  constructor
  · rintro ⟨limit, _, part, _, rfl⟩
    exact ⟨limit, part, rfl⟩
  · rintro ⟨limit, part, rfl⟩
    exact ⟨limit, by cases limit <;> decide, part, by cases part <;> decide, rfl⟩

theorem isLimitId_eq_false_iff {id : ElementId} : isLimitId start id = false ↔ Apart start id := by
  rw [← Bool.not_eq_true, isLimitId_iff]
  simp only [Apart, not_exists, not_and]

theorem covers_isLimitId {activity : Node} (member : activity ∈ start.nodes)
    (isActivity : activity.kind.isActivity = true) : Covers (isLimitId start) activity.id :=
  fun limit part => isLimitId_iff.2 ⟨activity, member, isActivity, limit, part, rfl⟩

/-- A process without time limits whose references are apart from them does not refer to any. -/
theorem ReferencesApart.unreferenced (apart : ReferencesApart start) :
    Unreferenced (isLimitId start) start := by
  intro node shown reference referred
  obtain ⟨before, member, _, rfl⟩ := mem_nodes_core.1 shown
  rw [coreNode, Node.incoming_forgetLimits, Node.outgoing_forgetLimits] at referred
  exact isLimitId_eq_false_iff.2 (apart before member reference
    (referred.imp List.mem_of_mem_filter List.mem_of_mem_filter))

variable (wellFormed : start.WellFormed) (unlimited : Unlimited start)
include wellFormed unlimited

theorem Unlimited.layered : Layered (isLimitId start) start :=
  .initially wellFormed fun _ used => isLimitId_eq_false_iff.2 (unlimited.apart used)

/-- However the time limits of its nodes were changed, the process overlays the start. -/
theorem Adjusted.overlays {delegate : String} {graph : Graph}
    (adjusted : Adjusted delegate start graph) : Overlays (isLimitId start) start graph := by
  induction adjusted with
  | start => exact (unlimited.layered wellFormed).overlays_self
  | @change graph node _ member limit value inductionHypothesis =>
      cases isActivity : node.kind.isActivity with
      | true =>
          exact inductionHypothesis.trans (inductionHypothesis.layered.change_left
            (covers_isLimitId member isActivity) delegate limit value)
      | false =>
          obtain ⟨held, found, sameKind⟩ := inductionHypothesis.exists_node member
            (isLimitId_eq_false_iff.2 (unlimited.node_apart member))
          have unowned : owningContainer graph node.id = .error (.notAnActivity node.id) := by
            simp [owningContainer, found, sameKind, isActivity]
          rw [TimerChange.left, change_of_unowned unowned]
          exact inductionHypothesis

end Start

/-- However the time limits of the nodes of a reached process were changed, a run of built-in rules
at any levels makes the same report as before, and so does the check of required fields, provided
that no element and no reference at the start used an id of a time limit. -/
theorem Adjusted.invisible {policy : Policy} {root : ElementId} {ledger : Ledger}
    (reached : Reached policy root ledger) (unlimited : Unlimited ledger.graph)
    (apart : ReferencesApart ledger.graph) {delegate : String} {graph : Graph}
    (adjusted : Adjusted delegate ledger.graph graph) {registry : Lint.Registry}
    (builtIn : registry.BuiltIn) (translate : Lint.Translator) :
    Lint.run registry translate graph = Lint.run registry translate ledger.graph ∧
      Lint.RequiredFields.check translate graph =
        Lint.RequiredFields.check translate ledger.graph := by
  have wellFormed := reached.sound.wellFormed
  have overlays := adjusted.overlays wellFormed unlimited
  have unreferenced : Unreferenced (isLimitId ledger.graph) graph := by
    rw [Unreferenced, overlays.core_eq]
    exact apart.unreferenced
  constructor
  · calc Lint.run registry translate graph
      _ = Lint.run registry translate (graph.core (isLimitId ledger.graph)) :=
          (Lint.run_core overlays.layered unreferenced builtIn translate).symm
      _ = Lint.run registry translate (ledger.graph.core (isLimitId ledger.graph)) := by
          rw [overlays.core_eq]
      _ = Lint.run registry translate ledger.graph :=
          Lint.run_core (unlimited.layered wellFormed) apart.unreferenced builtIn translate
  · calc Lint.RequiredFields.check translate graph
      _ = Lint.RequiredFields.check translate (graph.core (isLimitId ledger.graph)) :=
          (Lint.RequiredFields.check_core overlays.layered translate).symm
      _ = Lint.RequiredFields.check translate (ledger.graph.core (isLimitId ledger.graph)) := by
          rw [overlays.core_eq]
      _ = Lint.RequiredFields.check translate ledger.graph :=
          Lint.RequiredFields.check_core (unlimited.layered wellFormed) translate

/-- A task without a name that is not connected is reported on in the same way with all its time
limits set. -/
theorem invisible_of_all_set : ∃ graph, Adjusted "delegate" soleTask.graph graph ∧
    graph.ids.length = 11 ∧
    (Lint.run Lint.Registry.recommended id graph).groups.keys = [⟨"P"⟩, ⟨"T"⟩] ∧
    Lint.run Lint.Registry.recommended id graph =
      Lint.run Lint.Registry.recommended id soleTask.graph ∧
    Lint.RequiredFields.check id graph = Lint.RequiredFields.check id soleTask.graph := by
  let task : Node := { Node.alone ⟨"T"⟩ (.task .user) with parent := some ⟨"P"⟩ }
  have member : task ∈ soleTask.graph.nodes := by decide
  have adjusted := (Adjusted.start : Adjusted "delegate" soleTask.graph _).enterAll member
    [(.deadline, some "2H"), (.firstWarning, some "1H"), (.loopWarning, some "20M")]
  have apart : ReferencesApart soleTask.graph := by
    have none : ∀ node ∈ soleTask.graph.nodes, node.incoming = [] ∧ node.outgoing = [] := by decide
    intro node present reference referred
    rw [(none node present).1, (none node present).2] at referred
    exact absurd (referred.elim id id) List.not_mem_nil
  have same := adjusted.invisible (reached_soleTask ⟨true, true⟩) unlimited_soleTask apart
    Lint.Registry.builtIn_recommended id
  refine ⟨_, adjusted, by decide +kernel, ?_, same⟩
  rw [same.1]
  decide +kernel

end TimeLimit

end BusinessProcess
