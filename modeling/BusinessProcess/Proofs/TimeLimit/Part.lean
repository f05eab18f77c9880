import BusinessProcess.TimeLimit.Sweep

/-!
# The parts of a time limit

A time limit takes effect through a boundary event, a service task and a flow. Their ids add one of
nine endings to the id of the activity. No ending is the end of another one, so an id tells which
part of which limit of which activity it belongs to.
-/

namespace BusinessProcess.TimeLimit

/-- The three parts through which a time limit takes effect. -/
inductive Part where
  | event
  | service
  | flow
deriving DecidableEq

namespace Part

/-- What the id of a part adds to the id of the activity. -/
def ending (limit : TimeLimit) : Part → String
  | .event => limit.boundaryEnding
  | .service => limit.boundaryEnding ++ serviceEnding
  | .flow => limit.boundaryEnding ++ serviceFlowEnding

/-- The id of a part of a time limit of `activity`. -/
def id (part : Part) (limit : TimeLimit) (activity : ElementId) : ElementId :=
  activity.withEnding (part.ending limit)

end Part

theorem boundaryId_eq (limit : TimeLimit) (activity : ElementId) :
    limit.boundaryId activity = Part.event.id limit activity :=
  rfl

theorem serviceId_eq (limit : TimeLimit) (activity : ElementId) :
    serviceId (limit.boundaryId activity) = Part.service.id limit activity := by
  simp only [serviceId, boundaryId, Part.id, Part.ending, ElementId.withEnding, String.append_assoc]

theorem serviceFlowId_eq (limit : TimeLimit) (activity : ElementId) :
    serviceFlowId (limit.boundaryId activity) = Part.flow.id limit activity := by
  simp only [serviceFlowId, boundaryId, Part.id, Part.ending, ElementId.withEnding,
    String.append_assoc]

namespace Part

/-- No ending is the end of another one. -/
theorem eq_of_suffix {first second : Part} {limit other : TimeLimit}
    (suffix : (first.ending limit).toList <:+ (second.ending other).toList) :
    first = second ∧ limit = other := by
  cases first <;> cases limit <;> cases second <;> cases other <;>
    first
    | exact ⟨rfl, rfl⟩
    | exact absurd suffix (by decide)

/-- An id tells which part of which limit of which activity it belongs to. -/
theorem id_inj {first second : Part} {limit other : TimeLimit} {activity task : ElementId} :
    first.id limit activity = second.id other task ↔
      first = second ∧ limit = other ∧ activity = task := by
  constructor
  · intro same
    have lists : activity.text.toList ++ (first.ending limit).toList =
        task.text.toList ++ (second.ending other).toList := by
      have texts := congrArg (fun id => id.text.toList) same
      simpa [id, ElementId.withEnding] using texts
    have ends : first = second ∧ limit = other := by
      rcases List.append_eq_append_iff.1 lists with ⟨middle, _, longer⟩ | ⟨middle, _, longer⟩
      · exact eq_of_suffix ⟨middle, longer.symm⟩ |>.imp Eq.symm Eq.symm
      · exact eq_of_suffix ⟨middle, longer.symm⟩
    obtain ⟨rfl, rfl⟩ := ends
    exact ⟨rfl, rfl, ElementId.withEnding_inj.1 same⟩
  · rintro ⟨rfl, rfl, rfl⟩
    rfl

/-- The id of a part is longer than that of its activity. -/
theorem id_ne_self (part : Part) (limit : TimeLimit) (activity : ElementId) :
    part.id limit activity ≠ activity := by
  intro same
  have lengths := congrArg (fun id => id.text.length) same
  simp only [id, ElementId.withEnding, String.length_append, Nat.add_eq_left] at lengths
  cases part <;> cases limit <;> cases lengths

end Part

/-- The sweep recognizes boundary events by the ids that time limits give them. -/
theorem isLimitNode_of_event {limit : TimeLimit} {activity : ElementId} {node : Node}
    (named : node.id = Part.event.id limit activity) (kind : node.kind = .event .boundary) :
    isLimitNode node = true := by
  simp only [isLimitNode, kind]
  refine List.any_eq_true.2 ⟨limit, by cases limit <;> decide, ?_⟩
  rw [named]
  exact ElementId.endsWith_withEnding _ _

/-- The sweep recognizes service tasks by the ids that time limits give them. -/
theorem isLimitNode_of_service {limit : TimeLimit} {activity : ElementId} {node : Node}
    (named : node.id = Part.service.id limit activity) (kind : node.kind = .task .service) :
    isLimitNode node = true := by
  simp only [isLimitNode, kind]
  rw [named, ← serviceId_eq]
  exact ElementId.endsWith_withEnding _ _

/-- Whether the id is that of a part of the time limit. -/
def isPartOf (limit : TimeLimit) (activity id : ElementId) : Bool :=
  id = Part.flow.id limit activity ||
    (id = Part.service.id limit activity || id = Part.event.id limit activity)

theorem isPartOf_iff {limit : TimeLimit} {activity id : ElementId} :
    isPartOf limit activity id = true ↔ ∃ part : Part, id = part.id limit activity := by
  simp only [isPartOf, Bool.or_eq_true, decide_eq_true_eq]
  constructor
  · rintro (same | same | same)
    · exact ⟨.flow, same⟩
    · exact ⟨.service, same⟩
    · exact ⟨.event, same⟩
  · rintro ⟨part, rfl⟩
    cases part <;> simp

end BusinessProcess.TimeLimit
