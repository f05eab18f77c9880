import BusinessProcess.Lint.Rule.Duplicate
import BusinessProcess.Proofs.Graph.Naming
import BusinessProcess.Proofs.TimeLimit.Part
import Mathlib.Data.List.ProdSigma

/-!
# The ids derived for time limits

Nine ids are derived from the id of an activity: one for each part of each limit. Appending is not
injective in general, but no ending is the end of another one, so ids derived from different
activities differ, whatever the activities are called. The sweep and the rule about duplicate flows
find derived ids by their endings. These are made of characters that may stand inside a name, so
what is derived from a name is a name.
-/

namespace BusinessProcess.TimeLimit

/-- Every part of every time limit. -/
def parts : List (TimeLimit × Part) :=
  all ×ˢ [.event, .service, .flow]

/-- The ids that are derived from the id of an activity. -/
def derivedIds (activity : ElementId) : List ElementId :=
  all.flatMap fun limit =>
    let boundary := limit.boundaryId activity
    [boundary, serviceId boundary, serviceFlowId boundary]

variable {activity other id : ElementId}

/-- The derived ids are those of the parts. -/
theorem derivedIds_eq (activity : ElementId) :
    derivedIds activity = parts.map fun (limit, part) => part.id limit activity := by
  simp only [derivedIds, serviceId_eq, serviceFlowId_eq]
  rfl

theorem mem_derivedIds :
    id ∈ derivedIds activity ↔ ∃ limit, ∃ part : Part, id = part.id limit activity := by
  rw [derivedIds_eq, List.mem_map]
  constructor
  · rintro ⟨⟨limit, part⟩, -, rfl⟩
    exact ⟨limit, part, rfl⟩
  · rintro ⟨limit, part, rfl⟩
    exact ⟨(limit, part), by cases limit <;> cases part <;> decide, rfl⟩

/-! ## Separation -/

/-- Different parts have different ids, none of which is that of the activity. -/
theorem nodup_derivedIds (activity : ElementId) : (activity :: derivedIds activity).Nodup := by
  rw [List.nodup_cons]
  constructor
  · intro isDerived
    obtain ⟨limit, part, same⟩ := mem_derivedIds.1 isDerived
    exact part.id_ne_self limit activity same.symm
  · rw [derivedIds_eq]
    apply List.Nodup.map _ (by decide)
    rintro ⟨limit, part⟩ ⟨otherLimit, otherPart⟩ same
    obtain ⟨rfl, rfl, -⟩ := Part.id_inj.1 same
    rfl

/-- An id is derived from one activity only. -/
theorem eq_of_mem_derivedIds (first : id ∈ derivedIds activity) (second : id ∈ derivedIds other) :
    activity = other := by
  obtain ⟨limit, part, rfl⟩ := mem_derivedIds.1 first
  obtain ⟨otherLimit, otherPart, same⟩ := mem_derivedIds.1 second
  exact (Part.id_inj.1 same).2.2

/-! ## Recognition -/

/-- Whatever bears the ids of a limit is recognized by them: the event and the service task by the
sweep, the flow by the sweep and by the rule about duplicate flows. -/
structure Recognized (limit : TimeLimit) (activity : ElementId) : Prop where
  event : ∀ node : Node, node.id = limit.boundaryId activity → node.kind = .event .boundary →
    isLimitNode node = true
  service : ∀ node : Node, node.id = serviceId (limit.boundaryId activity) →
    node.kind = .task .service → isLimitNode node = true
  flow : ∀ flow : SequenceFlow, flow.id = serviceFlowId (limit.boundaryId activity) →
    isLimitFlow flow = true ∧ Lint.Rule.comparedFlow? (.flow flow) = none

theorem recognized (limit : TimeLimit) (activity : ElementId) : Recognized limit activity where
  event _ named kind := isLimitNode_of_event named kind
  service _ named kind := isLimitNode_of_service (named.trans (serviceId_eq limit activity)) kind
  flow := by
    intro flow named
    have ends : flow.id.endsWith serviceFlowEnding = true := by
      rw [named]
      exact ElementId.endsWith_withEnding _ _
    exact ⟨ends, if_pos ends⟩

/-! ## Form -/

/-- All endings may stand inside a name. -/
theorem Part.isInner_of_mem_ending (part : Part) (limit : TimeLimit) :
    ∀ character ∈ (part.ending limit).toList, ElementId.IsInner character := by
  have boundary : limit.boundaryEnding.toList.all ElementId.isNameCharacter = true := by
    cases limit <;> decide
  have each : (part.ending limit).toList.all ElementId.isNameCharacter = true := by
    cases part with
    | event => exact boundary
    | service =>
        rw [ending, String.toList_append, List.all_append, boundary]
        decide
    | flow =>
        rw [ending, String.toList_append, List.all_append, boundary]
        decide
  intro character member
  exact ElementId.isNameCharacter_iff.1 (List.all_eq_true.1 each character member)

/-- What is derived from a name is a name. -/
theorem checkForm_of_mem_derivedIds (accepted : ElementId.checkForm activity.text = .ok ())
    (isDerived : id ∈ derivedIds activity) : ElementId.checkForm id.text = .ok () := by
  obtain ⟨limit, part, rfl⟩ := mem_derivedIds.1 isDerived
  rw [ElementId.checkForm_eq_ok_iff] at accepted ⊢
  rw [Part.id, ElementId.withEnding, String.toList_append]
  exact ElementId.append_mem_headed accepted (part.isInner_of_mem_ending limit)

/-- From every id nine others are derived. They differ from it and from each other, and no two ids
have a derived one in common. Each is recognized where the elements of time limits are looked for,
and all are accepted as ids if the one that they are derived from is. -/
theorem derivedIds_separate (activity other : ElementId) :
    (activity :: derivedIds activity).Nodup ∧ (derivedIds activity).length = 9 ∧
    (activity ≠ other → (derivedIds activity).Disjoint (derivedIds other)) ∧
    (∀ limit : TimeLimit, Recognized limit activity) ∧
    (ElementId.checkForm activity.text = .ok () →
      ∀ id ∈ derivedIds activity, ElementId.checkForm id.text = .ok ()) := by
  refine ⟨nodup_derivedIds activity, rfl, ?_, fun limit => recognized limit activity, ?_⟩
  · intro differ id first second
    exact differ (eq_of_mem_derivedIds first second)
  · intro accepted id isDerived
    exact checkForm_of_mem_derivedIds accepted isDerived

/-- An id that is itself derived shares no derived id with the one that it extends. -/
theorem derivedIds_separate_of_derived : ⟨"T_timer"⟩ ∈ derivedIds ⟨"T"⟩ ∧
    (derivedIds ⟨"T"⟩).Disjoint (derivedIds ⟨"T_timer"⟩) ∧
    (derivedIds ⟨"T_timer"⟩).Disjoint (derivedIds ⟨"T"⟩) ∧
    ∀ id ∈ derivedIds ⟨"T"⟩, ElementId.checkForm id.text = .ok () := by
  obtain ⟨-, -, disjoint, -, accepted⟩ := derivedIds_separate ⟨"T"⟩ ⟨"T_timer"⟩
  have apart := disjoint (by decide)
  exact ⟨by decide, apart, apart.symm, accepted (by decide)⟩

end BusinessProcess.TimeLimit
