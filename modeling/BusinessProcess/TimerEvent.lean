import BusinessProcess.Graph.Edit
import BusinessProcess.TimeLimit.Basic

/-!
# Timer events

A start event or an intermediate catch event may wait for a point in time, a length of time or a
repetition. Each is entered on its own and kept in an attribute of the event; the one definition
of the event is worked out from them. A repetition is anchored at the point in time if there is
one.
-/

namespace BusinessProcess.TimerEvent

/-- What may be entered for a timer event. -/
inductive Field where
  /-- A point in time. -/
  | startDate
  /-- A length of time. -/
  | duration
  /-- A repetition `R<n>/<period>`. -/
  | cycle
deriving DecidableEq, Repr

/-- The attribute of the event that keeps the field as entered. -/
def Field.attributeKey : Field → String
  | .startDate => "timeLimit:startTime"
  | .duration => "timeLimit:continuedTime"
  | .cycle => "timeLimit:loopTime"

/-- Whether a text is the first part of a repetition: `R` and any number of digits. -/
def isRepeat : List Char → Bool
  | 'R' :: count => count.all Char.isDigit
  | _ => false

/-- The parts of a repetition on the two sides of its only slash. -/
def cycleParts? (cycle : String) : Option (String × String) :=
  match Text.cutAt? '/' cycle.toList with
  | some (repetition, period) =>
      if isRepeat repetition && !period.isEmpty && !period.contains '/' then
        some (String.ofList repetition, String.ofList period)
      else none
  | none => none

/-- A repetition anchored at a point in time. -/
def anchor (start : String) (parts : String × String) : String :=
  parts.1 ++ "/" ++ start ++ "/" ++ parts.2

/-- The expression that a field contributes, given the attributes of its event. -/
def expression? (attributes : Attributes) (field : Field) : Option TimerExpression :=
  let start := attributes.filled? Field.startDate.attributeKey
  let cycle := attributes.filled? Field.cycle.attributeKey
  match field with
  | .startDate =>
      start.map fun start =>
        match cycle.bind cycleParts? with
        | some parts => ⟨.cycle, anchor start parts⟩
        | none => ⟨.date, start⟩
  | .duration => (attributes.filled? Field.duration.attributeKey).map (⟨.duration, ·⟩)
  | .cycle =>
      cycle.map fun cycle =>
        match start, cycleParts? cycle with
        | some start, some parts => ⟨.cycle, anchor start parts⟩
        | _, _ => ⟨.cycle, cycle⟩

/-- The expression of the first of the fields cycle, start date and duration that is filled. -/
def fallback? (attributes : Attributes) : Option TimerExpression :=
  match [Field.cycle, .startDate, .duration].find? fun field =>
      (attributes.filled? field.attributeKey).isSome with
  | some field => expression? attributes field
  | none => none

/-- The attributes and the expression of an event after a field is set to `value`, or cleared if
there is no value. -/
def enter (attributes : Attributes) (field : Field) (value : Option String) :
    Attributes × Option TimerExpression :=
  match value with
  | some raw =>
      let attributes := attributes.insert field.attributeKey raw
      (attributes, expression? attributes field)
  | none =>
      let attributes := attributes.erase field.attributeKey
      (attributes, fallback? attributes)

/-- Whether a node is an event that may wait for a time. -/
def isTimerEvent (node : Node) : Bool :=
  node.kind = .event .start || node.kind = .event .intermediateCatch

/-- Checks a value before it is entered: a repetition has to have its two parts. -/
def checkEntry (field : Field) : (value : Option String) → Except TimerError Unit
  | none => .ok ()
  | some text =>
      if field = .cycle && (cycleParts? text).isNone then .error (.malformedCycle text)
      else .ok ()

/-- Sets a field of an event to the value entered, or clears it if nothing is entered. The
definitions of the event become the one timer that follows, which is also returned. -/
def configure (graph : Graph) (event : ElementId) (field : Field) (value : Option String) :
    Except TimerError (Option TimerExpression × Graph) :=
  match graph.node? event with
  | none => .error (.unknownElement event)
  | some node =>
      if !isTimerEvent node then .error (.notATimerEvent event)
      else
        match checkEntry field (Text.entered? value) with
        | .error error => .error error
        | .ok () =>
            let (attributes, expression) := enter node.attributes field (Text.entered? value)
            let definitions := expression.toList.map EventDefinition.timer
            .ok (expression, graph.updateNode event fun node =>
              { node with attributes := attributes, definitions := definitions })

/-- The parts of a repetition put together with a slash give it back. -/
theorem eq_of_cycleParts? {cycle repetition period : String}
    (parts : cycleParts? cycle = some (repetition, period)) :
    cycle = repetition ++ "/" ++ period := by
  unfold cycleParts? at parts
  split at parts
  next before after cut =>
    split at parts
    next =>
      obtain ⟨rfl, rfl⟩ := Prod.mk.inj (Option.some.inj parts)
      rw [← String.toList_inj]
      simpa using (Text.cutAt?_eq_some_iff.1 cut).1
    next => cases parts
  next => cases parts

end BusinessProcess.TimerEvent
