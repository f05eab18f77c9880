import BusinessProcess.Proofs.TimeLimit.Keep
import BusinessProcess.Proofs.TimeLimit.Separation

/-!
# Several limits in place

Limits that are in place stand in the order in which they were installed. An erasure that spares
them can be made before or after, and installing the first of them again moves it behind the others.
So what a change leaves behind is described by the limits in place and by the process without them.
-/

namespace BusinessProcess

namespace Graph

/-- Changes of two nodes are made in either order if they do not meet. -/
theorem updateNode_comm (graph : Graph) (first second : ElementId) {change other : Node → Node}
    (keeps : ∀ node, (change node).id = node.id) (otherKeeps : ∀ node, (other node).id = node.id)
    (commute : ∀ node, change (other node) = other (change node)) :
    (graph.updateNode first change).updateNode second other =
      (graph.updateNode second other).updateNode first change := by
  simp only [updateNode, List.map_map]
  congr 1
  refine List.map_congr_left fun node _ => ?_
  simp only [Function.comp_apply, apply_ite Node.id, keeps, otherKeeps, ite_self]
  split <;> split <;> first | rfl | exact (commute node).symm

/-- The process in which the attributes of the node with the given id are what `change` makes of
them. -/
def describe (graph : Graph) (id : ElementId) (change : Attributes → Attributes) : Graph :=
  graph.updateNode id fun node => { node with attributes := change node.attributes }

theorem node?_describe (graph : Graph) (id : ElementId) (change : Attributes → Attributes) :
    (graph.describe id change).node? id =
      (graph.node? id).map fun node => { node with attributes := change node.attributes } :=
  (graph.node?_updateNode id id fun _ => by rfl).trans (if_pos rfl)

/-- A node is described before or after another element is held. -/
theorem hold_describe (graph : Graph) (parent id : ElementId) {element : Element}
    (apart : element.id ≠ id) (change : Attributes → Attributes) :
    (graph.describe id change).hold parent element =
      (graph.hold parent element).describe id change := by
  have listed : (graph.describe id change).updateNode parent (·.addChild element.id) =
      (graph.updateNode parent (·.addChild element.id)).describe id change :=
    updateNode_comm graph id parent (fun _ => rfl) (fun _ => rfl) fun _ => rfl
  cases element with
  | flow flow =>
      rw [hold, listed]
      rfl
  | node node =>
      have other : node.id ≠ id := apart
      rw [hold, listed]
      simp [hold, describe, updateNode, other]

/-- A node is described before or after references to a flow are made. -/
theorem linkOutgoing_describe (graph : Graph) (id other flow : ElementId)
    (change : Attributes → Attributes) :
    (graph.describe id change).updateNode other (·.linkOutgoing flow) =
      (graph.updateNode other (·.linkOutgoing flow)).describe id change := by
  refine updateNode_comm graph id other (fun _ => rfl) (fun node => node.id_linkOutgoing flow)
    fun node => ?_
  simp only [Node.linkOutgoing]
  split <;> rfl

theorem linkIncoming_describe (graph : Graph) (id other flow : ElementId)
    (change : Attributes → Attributes) :
    (graph.describe id change).updateNode other (·.linkIncoming flow) =
      (graph.updateNode other (·.linkIncoming flow)).describe id change := by
  refine updateNode_comm graph id other (fun _ => rfl) (fun node => node.id_linkIncoming flow)
    fun node => ?_
  simp only [Node.linkIncoming]
  split <;> rfl

/-- A node is described before or after an erasure. -/
theorem without_describe (graph : Graph) (doomed : ElementId → Bool) (id : ElementId)
    (change : Attributes → Attributes) :
    (graph.describe id change).without doomed = (graph.without doomed).describe id change :=
  without_changeAttributes id change

/-- How a node is described goes by what becomes of the attributes that it carries. -/
theorem describe_congr {graph : Graph} {id : ElementId} {first second : Attributes → Attributes}
    (same : ∀ node ∈ graph.nodes, node.id = id → first node.attributes = second node.attributes) :
    graph.describe id first = graph.describe id second := by
  simp only [describe, updateNode]
  congr 1
  refine List.map_congr_left fun node member => ?_
  split
  next isHere => rw [same node member isHere]
  next => rfl

/-- Describing a node twice is describing it once. -/
theorem describe_describe (graph : Graph) (id : ElementId)
    (first second : Attributes → Attributes) :
    (graph.describe id first).describe id second =
      graph.describe id fun attributes => second (first attributes) := by
  simp only [describe, updateNode, List.map_map]
  congr 1
  refine List.map_congr_left fun node _ => ?_
  simp only [Function.comp_apply, apply_ite Node.id, ite_self]
  split <;> rfl

end Graph

namespace TimeLimit

open BusinessProcess.Graph

/-- The process with the elements of several limits of `activity` in `container`, added one limit
after the other. -/
def equipAll (delegate : String) (container activity : ElementId) (settings : List Setting)
    (graph : Graph) : Graph :=
  settings.foldl (fun graph setting => equip delegate container activity setting graph) graph

/-- The settings that take effect when limits are worked out one after the other: those that are due
up to the first one that is not. -/
def dueAll (attributes : Attributes) : List TimeLimit → List Setting
  | [] => []
  | limit :: rest =>
      match due? attributes limit with
      | some setting => setting :: dueAll attributes rest
      | none => []

/-- Whether the id is that of a part of one of the given limits of the activity. -/
def isPartOfSome (limits : List TimeLimit) (activity id : ElementId) : Bool :=
  limits.any fun limit => isPartOf limit activity id

theorem isPartOfSome_iff {limits : List TimeLimit} {activity id : ElementId} :
    isPartOfSome limits activity id = true ↔
      ∃ limit ∈ limits, ∃ part : Part, id = part.id limit activity := by
  simp only [isPartOfSome, List.any_eq_true, isPartOf_iff]

/-- The settings are for different limits, and the ids of the parts of these are free. -/
structure Room (activity : ElementId) (settings : List Setting) (graph : Graph) : Prop where
  distinct : (settings.map Setting.limit).Nodup
  free : ∀ setting ∈ settings, ∀ part : Part, part.id setting.limit activity ∉ graph.ids

/-! ## The limits that are due -/

section Due

variable {attributes : Attributes} {limits : List TimeLimit}

/-- What is kept for a limit itself does not matter to its timer. -/
theorem derive_of_ne {first second : Attributes} {limit : TimeLimit} {raw : String}
    (same : ∀ other, other ≠ limit → stored? first other = stored? second other) :
    derive first limit raw = derive second limit raw := by
  refine derive_congr fun earlier needed => same earlier ?_
  rintro rfl
  cases earlier <;> cases needed

theorem dueAll_of_none {limit : TimeLimit} (due : due? attributes limit = none) :
    dueAll attributes (limit :: limits) = [] := by
  simp only [dueAll, due]

theorem dueAll_of_some {limit : TimeLimit} {setting : Setting}
    (due : due? attributes limit = some setting) :
    dueAll attributes (limit :: limits) = setting :: dueAll attributes limits := by
  simp only [dueAll, due]

/-- Which limits take effect goes by the values kept. -/
theorem dueAll_congr {first second : Attributes}
    (same : ∀ limit, stored? first limit = stored? second limit) (limits : List TimeLimit) :
    dueAll first limits = dueAll second limits := by
  have due : ∀ limit, due? first limit = due? second limit := fun limit => by
    simp only [due?, same, derive_congr fun earlier _ => same earlier]
  induction limits with
  | nil => rfl
  | cons limit rest inductionHypothesis => simp only [dueAll, due, inductionHypothesis]

/-- A limit that is put in place is none of those still to be worked out. -/
theorem disjoint_concat {settings : List Setting} {setting : Setting}
    (fresh : setting.limit ∉ limits)
    (others : (settings.map Setting.limit).Disjoint (setting.limit :: limits)) :
    ((settings ++ [setting]).map Setting.limit).Disjoint limits := by
  rw [List.map_append, List.disjoint_append_left]
  exact ⟨(List.disjoint_cons_right.1 others).2, List.singleton_disjoint.2 fresh⟩

end Due

/-! ## Adding limits -/

section Equip

variable {delegate : String} {graph : Graph} {container activity : ElementId} {setting : Setting}
  {settings : List Setting} {doomed : ElementId → Bool}

theorem equipAll_cons :
    equipAll delegate container activity (setting :: settings) graph =
      equipAll delegate container activity settings
        (equip delegate container activity setting graph) :=
  rfl

/-- A limit that is put in place behind the others is the last one. -/
theorem equip_equipAll :
    equip delegate container activity setting
        (equipAll delegate container activity settings graph) =
      equipAll delegate container activity (settings ++ [setting]) graph := by
  rw [equipAll, equipAll, List.foldl_append]
  rfl

/-- The ids in use are those before and those of the parts. -/
theorem mem_ids_equip {id : ElementId} :
    id ∈ (equip delegate container activity setting graph).ids ↔
      id ∈ graph.ids ∨ ∃ part : Part, id = part.id setting.limit activity := by
  have linked : ∀ (process : Graph) (node : ElementId) {change : Node → Node},
      (∀ node, (change node).shape = node.shape) →
        (process.updateNode node change).ids = process.ids :=
    fun process node _ keeps => (sameShape_updateNode process node keeps).ids_eq
  dsimp only [equip]
  rw [linked _ _ fun node => node.shape_linkIncoming _,
    linked _ _ fun node => node.shape_linkOutgoing _, (ids_hold _ _ _).mem_iff, List.mem_cons,
    (ids_hold _ _ _).mem_iff, List.mem_cons, (ids_hold _ _ _).mem_iff, List.mem_cons]
  simp only [Element.id]
  rw [show (serviceFlow activity setting.limit).id = Part.flow.id setting.limit activity from
      serviceFlowId_eq _ _,
    show (serviceTask activity setting.limit delegate).id = Part.service.id setting.limit activity
      from serviceId_eq _ _,
    show (boundaryEvent activity setting).id = Part.event.id setting.limit activity from rfl]
  constructor
  · rintro (isFlow | isService | isEvent | used)
    · exact .inr ⟨.flow, isFlow⟩
    · exact .inr ⟨.service, isService⟩
    · exact .inr ⟨.event, isEvent⟩
    · exact .inl used
  · rintro (used | ⟨part, isPart⟩)
    · exact .inr (.inr (.inr used))
    · cases part with
      | event => exact .inr (.inr (.inl isPart))
      | service => exact .inr (.inl isPart)
      | flow => exact .inl isPart

/-- The ids below are in use. -/
theorem ids_subset_equipAll :
    graph.ids ⊆ (equipAll delegate container activity settings graph).ids := by
  induction settings generalizing graph with
  | nil => exact List.Subset.refl _
  | cons setting rest inductionHypothesis =>
      exact fun id used => inductionHypothesis (mem_ids_equip.2 (.inl used))

/-- There is room for a single limit whose parts have free ids. -/
theorem Room.single (free : ∀ part : Part, part.id setting.limit activity ∉ graph.ids) :
    Room activity [setting] graph where
  distinct := List.nodup_singleton _
  free other member := by
    rw [List.mem_singleton.1 member]
    exact free

/-- Once the first limit is in place there is room for the others. -/
theorem Room.tail (room : Room activity (setting :: settings) graph) :
    Room activity settings (equip delegate container activity setting graph) where
  distinct := (List.nodup_cons.1 room.distinct).2
  free other member part used := by
    rcases mem_ids_equip.1 used with wasUsed | ⟨another, same⟩
    · exact room.free other (List.mem_cons_of_mem _ member) part wasUsed
    · refine (List.nodup_cons.1 room.distinct).1 (List.mem_map.2 ⟨other, member, ?_⟩)
      exact (Part.id_inj.1 same).2.1

/-- There is room for fewer limits, in any order, and with fewer elements around. -/
theorem Room.mono (room : Room activity settings graph) {fewer : List Setting} {later : Graph}
    (among : fewer.Subperm settings) (ids : later.ids ⊆ graph.ids) : Room activity fewer later where
  distinct := by
    obtain ⟨sorted, perm, sub⟩ := among
    exact (perm.map _).nodup_iff.1 ((sub.map _).nodup room.distinct)
  free setting member part used := room.free setting (among.subset member) part (ids used)

/-- There is room for one more limit whose parts have free ids. -/
theorem Room.concat (room : Room activity settings graph)
    (other : setting.limit ∉ settings.map Setting.limit)
    (free : ∀ part : Part, part.id setting.limit activity ∉ graph.ids) :
    Room activity (settings ++ [setting]) graph where
  distinct := by
    rw [List.map_append, List.map_singleton]
    exact List.nodup_append_comm.1 (List.nodup_cons.2 ⟨other, room.distinct⟩)
  free later member := by
    rcases List.mem_append.1 member with isEarlier | isSetting
    · exact room.free later isEarlier
    · rw [List.mem_singleton.1 isSetting]
      exact free

theorem Room.without (room : Room activity settings graph) (doomed : ElementId → Bool) :
    Room activity settings (graph.without doomed) := by
  refine room.mono (List.Subperm.refl _) fun id used => ?_
  rw [ids_without] at used
  exact List.mem_of_mem_filter used

/-- The first limit takes none of the ids of the parts of the others. -/
theorem Room.not_isPartOf (room : Room activity (setting :: settings) graph) {other : Setting}
    (member : other ∈ settings) (part : Part) :
    isPartOf setting.limit activity (part.id other.limit activity) = false := by
  rw [← Bool.not_eq_true, isPartOf_iff]
  rintro ⟨another, same⟩
  refine (List.nodup_cons.1 room.distinct).1 (List.mem_map.2 ⟨other, member, ?_⟩)
  exact (Part.id_inj.1 same).2.1

/-- Limits whose parts are not erased are put in place before or after an erasure. -/
theorem without_equipAll (room : Room activity settings graph)
    (kept : ∀ setting ∈ settings, ∀ part : Part, doomed (part.id setting.limit activity) = false) :
    (equipAll delegate container activity settings graph).without doomed =
      equipAll delegate container activity settings (graph.without doomed) := by
  induction settings generalizing graph with
  | nil => rfl
  | cons setting rest inductionHypothesis =>
      rw [equipAll_cons, inductionHypothesis room.tail fun other member =>
          kept other (List.mem_cons_of_mem _ member),
        without_equip (room.free setting List.mem_cons_self) (kept setting List.mem_cons_self)]
      rfl

/-- Uninstalling the first limit leaves the others, as if it had not been put in place. -/
theorem without_isPartOf_equipAll (room : Room activity (setting :: settings) graph) :
    (equipAll delegate container activity (setting :: settings) graph).without
        (isPartOf setting.limit activity) =
      equipAll delegate container activity settings
        (graph.without (isPartOf setting.limit activity)) := by
  rw [equipAll_cons, without_equipAll room.tail fun other member => room.not_isPartOf member,
    without_equip_of_doomed (room.free setting List.mem_cons_self) fun part =>
      isPartOf_iff.2 ⟨part, rfl⟩]

/-- Nothing is erased with a limit for which there is room. -/
theorem Room.without_isPartOf (room : Room activity settings graph) (tidy : graph.Tidy)
    (member : setting ∈ settings) : graph.without (isPartOf setting.limit activity) = graph := by
  refine tidy.without_eq_self fun id used => ?_
  rw [← Bool.not_eq_true, isPartOf_iff]
  rintro ⟨part, rfl⟩
  exact room.free setting member part used

/-- The activity is described before or after limits are put in place. -/
theorem equip_describe (change : Attributes → Attributes) :
    equip delegate container activity setting (graph.describe activity change) =
      (equip delegate container activity setting graph).describe activity change := by
  have event : (boundaryEvent activity setting).id ≠ activity :=
    Part.event.id_ne_self setting.limit activity
  have service : (serviceTask activity setting.limit delegate).id ≠ activity :=
    (serviceId_eq _ _).trans_ne (Part.service.id_ne_self setting.limit activity)
  have flow : (serviceFlow activity setting.limit).id ≠ activity :=
    (serviceFlowId_eq _ _).trans_ne (Part.flow.id_ne_self setting.limit activity)
  dsimp only [equip]
  rw [hold_describe, hold_describe, hold_describe, linkOutgoing_describe, linkIncoming_describe]
  · exact flow
  · exact service
  · exact event

theorem equipAll_describe (change : Attributes → Attributes) :
    equipAll delegate container activity settings (graph.describe activity change) =
      (equipAll delegate container activity settings graph).describe activity change := by
  induction settings generalizing graph with
  | nil => rfl
  | cons setting rest inductionHypothesis =>
      rw [equipAll_cons, equip_describe, inductionHypothesis, equipAll_cons]

end Equip

/-! ## What is read of the activity -/

section Read

variable {container activity : ElementId} {graph : Graph}

/-- The activity lies where it did after it was described. -/
theorem owningContainer_describe (change : Attributes → Attributes) :
    owningContainer (graph.describe activity change) activity = owningContainer graph activity := by
  rw [owningContainer, node?_describe, owningContainer]
  cases graph.node? activity <;> rfl

/-- The activity lies where it did after an erasure that spares it. -/
theorem owningContainer_without {doomed : ElementId → Bool} (kept : doomed activity = false) :
    owningContainer (graph.without doomed) activity = owningContainer graph activity := by
  rw [owningContainer, node?_without, if_neg (by simp [kept]), owningContainer]
  cases graph.node? activity <;> rfl

/-- An erasure that spares the activity spares its attributes. -/
theorem attributesOf_without {doomed : ElementId → Bool} (kept : doomed activity = false) :
    attributesOf (graph.without doomed) activity = attributesOf graph activity := by
  rw [attributesOf, node?_without, if_neg (by simp [kept]), attributesOf]
  cases graph.node? activity <;> rfl

/-- An activity that has a container carries the attributes that it was described with. -/
theorem attributesOf_describe (owned : owningContainer graph activity = .ok container)
    (change : Attributes → Attributes) :
    attributesOf (graph.describe activity change) activity =
      change (attributesOf graph activity) := by
  rw [attributesOf, node?_describe, attributesOf]
  rw [owningContainer] at owned
  cases found : graph.node? activity with
  | some node => rfl
  | none =>
      rw [found] at owned
      cases owned

/-- Describing an activity is replacing what it carries. -/
theorem describe_eq (distinct : graph.ids.Nodup) (activity : ElementId)
    (change : Attributes → Attributes) : graph.describe activity change =
      graph.describe activity fun _ => change (attributesOf graph activity) := by
  refine describe_congr fun node member isHere => ?_
  have found := node?_of_mem distinct member
  rw [isHere] at found
  simp only [attributesOf, found]

/-- Describing an activity as it is changes nothing. -/
theorem describe_eq_self (distinct : graph.ids.Nodup) {change : Attributes → Attributes}
    (same : change (attributesOf graph activity) = attributesOf graph activity) :
    graph.describe activity change = graph := by
  rw [describe_eq distinct, same, ← describe_eq distinct activity fun attributes => attributes]
  simp [describe, updateNode]

/-- No activity is a part of one of its limits. -/
theorem isPartOfSome_self (limits : List TimeLimit) (activity : ElementId) :
    isPartOfSome limits activity activity = false := by
  rw [← Bool.not_eq_true, isPartOfSome_iff]
  rintro ⟨limit, _, part, same⟩
  exact part.id_ne_self limit activity same.symm

end Read

/-! ## The steps of a change -/

/-- A limit that was installed was uninstalled first, and its elements were added after that. -/
theorem exists_of_install_eq_ok {delegate : String} {container activity : ElementId}
    {setting : Setting} {graph left : Graph}
    (done : install delegate container activity setting graph = .ok () left) :
    ∃ cleared first second, uninstall activity setting.limit graph = .ok () cleared ∧
      cleared.addNode container (boundaryEvent activity setting) = .ok first ∧
      first.addNode container (serviceTask activity setting.limit delegate) = .ok second ∧
      second.addFlow container (serviceFlow activity setting.limit) = .ok left := by
  obtain ⟨_, cleared, uninstalled, added⟩ := TimerChange.exists_of_bind_eq_ok done
  obtain ⟨_, first, event, added⟩ := TimerChange.exists_of_bind_eq_ok added
  obtain ⟨_, second, service, flow⟩ := TimerChange.exists_of_bind_eq_ok added
  exact ⟨cleared, first, second, uninstalled, TimerChange.eq_ok_of_attempt event,
    TimerChange.eq_ok_of_attempt service, TimerChange.eq_ok_of_attempt flow⟩

/-- How a change of a limit that is not refused comes about. -/
inductive Course (delegate : String) (activity : ElementId) (limit : TimeLimit)
    (value : Option String) (graph : Graph) : Outcome → Graph → Prop where
  | cleared {container : ElementId} {middle left : Graph}
      (owned : owningContainer graph activity = .ok container)
      (entered : Text.entered? value = none)
      (uninstalled : uninstall activity limit
        (graph.describe activity (·.erase limit.attributeKey)) = .ok () middle)
      (refreshed : refresh delegate container activity false limit.dependents middle =
        .ok () left) :
      Course delegate activity limit value graph .removed left
  | skipped {container : ElementId} {raw : String} {obstacle : Obstacle}
      (owned : owningContainer graph activity = .ok container)
      (entered : Text.entered? value = some raw)
      (failed : derive (attributesOf graph activity) limit raw = .error obstacle) :
      Course delegate activity limit value graph (.skipped obstacle) graph
  | set {container : ElementId} {raw : String} {expression : TimerExpression}
      {middle left : Graph} (owned : owningContainer graph activity = .ok container)
      (entered : Text.entered? value = some raw)
      (derived : derive (attributesOf graph activity) limit raw = .ok expression)
      (installed : install delegate container activity ⟨limit, raw, expression⟩
        (graph.describe activity (·.insert limit.attributeKey raw)) = .ok () middle)
      (refreshed : refresh delegate container activity true limit.dependents middle =
        .ok () left) :
      Course delegate activity limit value graph (.installed ⟨limit, raw, expression⟩) left

/-- A change answers with an outcome exactly if it comes about in one of the three ways. -/
theorem change_eq_ok_iff {delegate : String} {activity : ElementId} {limit : TimeLimit}
    {value : Option String} {graph left : Graph} {outcome : Outcome} :
    limit.change delegate activity value graph = .ok outcome left ↔
      Course delegate activity limit value graph outcome left := by
  constructor
  · intro done
    cases owned : owningContainer graph activity with
    | error error =>
        rw [change_of_unowned owned] at done
        cases done
    | ok container =>
        rw [change_of_owned owned, changeIn] at done
        cases entered : Text.entered? value with
        | none =>
            simp only [entered] at done
            obtain ⟨_, _, described, afterwards⟩ := TimerChange.exists_of_bind_eq_ok done
            obtain ⟨_, _, uninstalled, afterwards⟩ := TimerChange.exists_of_bind_eq_ok afterwards
            obtain ⟨_, _, refreshed, answered⟩ := TimerChange.exists_of_bind_eq_ok afterwards
            cases described
            cases answered
            exact .cleared owned entered uninstalled refreshed
        | some raw =>
            simp only [entered] at done
            cases derived : derive (attributesOf graph activity) limit raw with
            | error obstacle =>
                rw [derived] at done
                cases done
                exact .skipped owned entered derived
            | ok expression =>
                simp only [derived] at done
                obtain ⟨_, _, described, afterwards⟩ := TimerChange.exists_of_bind_eq_ok done
                obtain ⟨_, _, installed, afterwards⟩ := TimerChange.exists_of_bind_eq_ok afterwards
                obtain ⟨_, _, refreshed, answered⟩ := TimerChange.exists_of_bind_eq_ok afterwards
                cases described
                cases answered
                exact .set owned entered derived installed refreshed
  · intro course
    cases course with
    | cleared owned entered uninstalled refreshed =>
        exact change_of_empty owned entered uninstalled refreshed
    | skipped owned entered failed => exact change_of_obstacle owned entered failed
    | set owned entered derived installed refreshed =>
        exact change_of_derived owned entered derived installed refreshed

section Steps

variable {delegate : String} {container activity : ElementId} {attributes : Attributes}
  {limits : List TimeLimit}

/-- Uninstalling limits one after the other erases the parts of all. -/
theorem runSteps_refreshSteps_false (graph : Graph) :
    runSteps delegate container activity (refreshSteps attributes false limits) graph =
      graph.without (isPartOfSome limits activity) := by
  induction limits generalizing graph with
  | nil => exact (graph.without_nothing fun _ => rfl).symm
  | cons limit rest inductionHypothesis =>
      rw [refreshSteps, runSteps_cons, inductionHypothesis, Step.run, without_without]
      rfl

/-- Working out limits puts those that are due in place behind the ones that are there, and erases
the parts of all others. -/
theorem runSteps_refreshSteps {settings : List Setting} {graph : Graph}
    (room : Room activity settings graph) (distinct : limits.Nodup)
    (others : (settings.map Setting.limit).Disjoint limits) :
    runSteps delegate container activity (refreshSteps attributes true limits)
        (equipAll delegate container activity settings graph) =
      equipAll delegate container activity (settings ++ dueAll attributes limits)
        (graph.without (isPartOfSome limits activity)) := by
  induction limits generalizing settings graph with
  | nil =>
      have nothing : graph.without (isPartOfSome [] activity) = graph :=
        graph.without_nothing fun _ => rfl
      rw [nothing, dueAll, List.append_nil]
      rfl
  | cons limit rest inductionHypothesis =>
      obtain ⟨fresh, restDistinct⟩ := List.nodup_cons.1 distinct
      have isNew := (List.disjoint_cons_right.1 others).1
      have kept : ∀ setting ∈ settings, ∀ part : Part,
          isPartOfSome (limit :: rest) activity (part.id setting.limit activity) = false := by
        intro setting member part
        rw [← Bool.not_eq_true, isPartOfSome_iff]
        rintro ⟨other, isOther, another, same⟩
        obtain ⟨_, rfl, _⟩ := Part.id_inj.1 same
        exact others (List.mem_map_of_mem member) isOther
      cases due : due? attributes limit with
      | none =>
          -- From the first limit that is not due on, all are uninstalled.
          have steps : refreshSteps attributes true (limit :: rest) =
              refreshSteps attributes false (limit :: rest) := by
            simp only [refreshSteps, due]
          rw [steps, dueAll_of_none due, runSteps_refreshSteps_false, without_equipAll room kept,
            List.append_nil]
      | some setting =>
          obtain rfl := limit_of_due? due
          have keptFirst : ∀ other ∈ settings, ∀ part : Part,
              isPartOf setting.limit activity (part.id other.limit activity) = false := by
            intro other member part
            have spared := kept other member part
            rw [isPartOfSome, List.any_cons, Bool.or_eq_false_iff] at spared
            exact spared.1
          have larger := (room.without _).concat isNew (free_of_erased graph setting.limit)
          have steps : refreshSteps attributes true (setting.limit :: rest) =
              .install setting :: refreshSteps attributes true rest := by
            simp only [refreshSteps, due]
          rw [steps, dueAll_of_some due, runSteps_cons, Step.run, without_equipAll room keptFirst,
            equip_equipAll, inductionHypothesis larger restDistinct (disjoint_concat fresh others),
            without_without, List.append_assoc]
          rfl

end Steps

end TimeLimit

end BusinessProcess
