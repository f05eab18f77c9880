import BusinessProcess.Proofs.Graph.Commute
import BusinessProcess.TimeLimit.Basic

/-!
# The core of a process

Ids may be reserved for the elements of time limits. The core of a process is what is left of it
without the elements of reserved ids and without the values that activities keep for their limits.
Adding and removing elements of reserved ids, linking them and changing those values are all
changes that the core does not see.
-/

namespace BusinessProcess

namespace Store

variable {κ α : Type} [DecidableEq κ]

/-- The store with the entries of some keys only. -/
def select (store : Store κ α) (keeps : κ → Bool) : Store κ α where
  entries := store.entries.filter fun entry => keeps entry.1
  distinct := (List.filter_sublist.map Prod.fst).nodup store.distinct

/-- An insertion under a key that is not selected is not seen. -/
theorem select_insert_of_not (store : Store κ α) {keeps : κ → Bool} {key : κ}
    (left : keeps key = false) (value : α) :
    (store.insert key value).select keeps = store.select keeps := by
  have placed : ∀ entries : List (κ × α),
      (place key (fun _ => value) entries).filter (fun entry => keeps entry.1) =
        entries.filter fun entry => keeps entry.1 := by
    intro entries
    induction entries with
    | nil => simp [place, left]
    | cons head rest inductionHypothesis =>
        obtain ⟨name, held⟩ := head
        by_cases same : name = key
        · simp [place, same, left]
        · simp [place, same, List.filter_cons, inductionHypothesis]
  exact ext (placed store.entries)

/-- An erasure of a key that is not selected is not seen. -/
theorem select_erase_of_not (store : Store κ α) {keeps : κ → Bool} {key : κ}
    (left : keeps key = false) : (store.erase key).select keeps = store.select keeps := by
  refine ext ?_
  simp only [select, erase, List.filter_filter]
  refine List.filter_congr fun entry _ => ?_
  by_cases same : entry.1 = key <;> simp [same, left]

/-- A selected key has the value that it had. -/
theorem get?_select (store : Store κ α) {keeps : κ → Bool} {key : κ} (kept : keeps key = true) :
    (store.select keeps).get? key = store.get? key := by
  have found : ∀ entries : List (κ × α),
      find? key (entries.filter fun entry => keeps entry.1) = find? key entries := by
    intro entries
    induction entries with
    | nil => rfl
    | cons head rest inductionHypothesis =>
        obtain ⟨name, held⟩ := head
        by_cases same : name = key
        · simp [find?, same, kept]
        · cases keepsName : keeps name <;>
            simp [find?, same, keepsName, inductionHypothesis]
  exact found store.entries

end Store

/-! ## Forgetting time limits -/

/-- Whether a time limit is kept under the key. -/
def TimeLimit.isLimitKey (key : String) : Bool :=
  all.any fun limit => limit.attributeKey = key

theorem TimeLimit.isLimitKey_attributeKey (limit : TimeLimit) :
    isLimitKey limit.attributeKey = true := by
  cases limit <;> decide

/-- The attributes without the values kept for time limits. -/
def Attributes.forgetLimits (attributes : Attributes) : Attributes :=
  attributes.select fun key => !TimeLimit.isLimitKey key

/-- The node without the values kept for time limits. Only activities keep any. -/
def Node.forgetLimits (node : Node) : Node :=
  if node.kind.isActivity then { node with attributes := node.attributes.forgetLimits } else node

namespace Node

variable (node : Node)

@[simp] theorem id_forgetLimits : node.forgetLimits.id = node.id := by
  unfold forgetLimits
  split <;> rfl

@[simp] theorem kind_forgetLimits : node.forgetLimits.kind = node.kind := by
  unfold forgetLimits
  split <;> rfl

@[simp] theorem name_forgetLimits : node.forgetLimits.name = node.name := by
  unfold forgetLimits
  split <;> rfl

@[simp] theorem parent_forgetLimits : node.forgetLimits.parent = node.parent := by
  unfold forgetLimits
  split <;> rfl

@[simp] theorem children_forgetLimits : node.forgetLimits.children = node.children := by
  unfold forgetLimits
  split <;> rfl

@[simp] theorem incoming_forgetLimits : node.forgetLimits.incoming = node.incoming := by
  unfold forgetLimits
  split <;> rfl

@[simp] theorem outgoing_forgetLimits : node.forgetLimits.outgoing = node.outgoing := by
  unfold forgetLimits
  split <;> rfl

@[simp] theorem definitions_forgetLimits : node.forgetLimits.definitions = node.definitions := by
  unfold forgetLimits
  split <;> rfl

/-- Attributes that are no time limits are not forgotten. -/
theorem get?_forgetLimits {key : String} (other : TimeLimit.isLimitKey key = false) :
    node.forgetLimits.attributes.get? key = node.attributes.get? key := by
  unfold forgetLimits
  split
  next => exact node.attributes.get?_select (by rw [other]; rfl)
  next => rfl

end Node

namespace Graph

/-- The process without the values kept for time limits. -/
def forgetLimits (graph : Graph) : Graph :=
  { graph with nodes := graph.nodes.map Node.forgetLimits }

/-- The process without the elements of reserved ids and without the values kept for time
limits. -/
def core (reserved : ElementId → Bool) (graph : Graph) : Graph :=
  (graph.without reserved).forgetLimits

/-- What the core shows of a node. -/
def coreNode (reserved : ElementId → Bool) (graph : Graph) (node : Node) : Node :=
  (graph.prune reserved node).forgetLimits

section Core

variable {reserved : ElementId → Bool} {graph later : Graph}

theorem ne_of_reserved {first second : ElementId} (isReserved : reserved first = true)
    (unreserved : reserved second = false) : first ≠ second := by
  rintro rfl
  rw [isReserved] at unreserved
  cases unreserved

@[simp] theorem id_coreNode (node : Node) : (graph.coreNode reserved node).id = node.id :=
  Node.id_forgetLimits _

@[simp] theorem kind_coreNode (node : Node) : (graph.coreNode reserved node).kind = node.kind :=
  Node.kind_forgetLimits _

@[simp] theorem parent_coreNode (node : Node) :
    (graph.coreNode reserved node).parent = node.parent :=
  Node.parent_forgetLimits _

@[simp] theorem root_core : (graph.core reserved).root = graph.root :=
  rfl

theorem nodes_core : (graph.core reserved).nodes =
    (graph.nodes.filter (!reserved ·.id)).map (graph.coreNode reserved) := by
  simp only [core, forgetLimits, without, List.map_map]
  rfl

theorem mem_nodes_core {node : Node} : node ∈ (graph.core reserved).nodes ↔
    ∃ before ∈ graph.nodes, reserved before.id = false ∧ graph.coreNode reserved before = node := by
  simp [nodes_core, and_assoc]

theorem flows_core : (graph.core reserved).flows = graph.flows.filter (!reserved ·.id) :=
  rfl

/-- Where no id is reserved, the core forgets time limits and nothing else. -/
theorem Tidy.core_eq (tidy : graph.Tidy) (unreserved : ∀ id ∈ graph.ids, reserved id = false) :
    graph.core reserved = graph.forgetLimits := by
  rw [core, tidy.without_eq_self unreserved]

/-- Erasing elements of reserved ids is not seen in the core. -/
theorem core_without {doomed : ElementId → Bool}
    (within : ∀ id, doomed id = true → reserved id = true) :
    (graph.without doomed).core reserved = graph.core reserved := by
  rw [core, without_without, core]
  refine congrArg forgetLimits (without_congr graph fun id => ?_)
  cases gone : doomed id with
  | false => rfl
  | true => rw [within id gone]; rfl

/-- A change of a node with a reserved id is not seen in the core. -/
theorem core_updateNode {id : ElementId} (isReserved : reserved id = true) {change : Node → Node}
    (keeps : ∀ node, (change node).id = node.id) :
    (graph.updateNode id change).core reserved = graph.core reserved :=
  congrArg forgetLimits (without_updateNode_of_doomed keeps isReserved)

/-- A change of the values that an activity keeps for its time limits is not seen in the core. -/
theorem core_changeLimits {id : ElementId} {change : Attributes → Attributes}
    (forgets : ∀ attributes, (change attributes).forgetLimits = attributes.forgetLimits)
    (isActivity : ∀ node ∈ graph.nodes, node.id = id → node.kind.isActivity = true) :
    (graph.updateNode id fun node =>
      { node with attributes := change node.attributes }).core reserved = graph.core reserved := by
  rw [core, without_changeAttributes, core]
  apply Graph.ext
  · rfl
  · simp only [forgetLimits, updateNode, List.map_map]
    refine List.map_congr_left fun node member => ?_
    simp only [Function.comp_apply]
    split
    next isHere =>
      obtain ⟨before, present, _, rfl⟩ := mem_nodes_without.1 member
      have activity : (graph.prune reserved before).kind.isActivity = true :=
        isActivity before present isHere
      simp only [Node.forgetLimits, activity, if_true, forgets]
    next => rfl
  · rfl

/-- Holding a node of a reserved id is not seen in the core. -/
theorem core_hold_node (parent : ElementId) {node : Node} (isReserved : reserved node.id = true) :
    (graph.hold parent (.node node)).core reserved = graph.core reserved :=
  congrArg forgetLimits (without_hold_node_of_doomed _ isReserved)

/-- Holding a flow of a reserved id is not seen in the core if its ends have reserved ids. -/
theorem core_hold_flow (parent : ElementId) {flow : SequenceFlow} (free : flow.id ∉ graph.ids)
    (isReserved : reserved flow.id = true) (source : reserved flow.source = true)
    (target : reserved flow.target = true) :
    (graph.hold parent (.flow flow)).core reserved = graph.core reserved :=
  congrArg forgetLimits (without_hold_flow_of_doomed _ free isReserved source target)

end Core

end Graph

end BusinessProcess
