import BusinessProcess.Proofs.History.Edit
import BusinessProcess.Proofs.TimerEvent.Standing

/-!
# Histories of a timer event

However often the fields of a timer event are set and cleared, its definitions are the one timer
that its stored fields stand for, and each stored field is the one that was entered for it last.
Calls that are refused leave no trace.
-/

namespace BusinessProcess.TimerEvent

/-- A call that was accepted: what was to be entered, and the expression that it returned. -/
structure Acceptance where
  field : Field
  value : Option String
  expression : Option TimerExpression

/-- A run of calls on one event, with the calls that were accepted, the latest first. -/
inductive Configured (event : ElementId) (start : Graph) : Graph → List Acceptance → Prop
  | start : Configured event start start []
  | accepted {graph changed : Graph} {earlier : List Acceptance} {field : Field}
      {value : Option String} {expression : Option TimerExpression}
      (configured : Configured event start graph earlier)
      (done : configure graph event field value = .ok (expression, changed)) :
      Configured event start changed (⟨field, value, expression⟩ :: earlier)
  | refused {graph : Graph} {earlier : List Acceptance} {field : Field} {value : Option String}
      {error : TimerError} (configured : Configured event start graph earlier)
      (failed : configure graph event field value = .error error) :
      Configured event start graph earlier

/-- The value that was entered last for a field, unless the field was cleared since. -/
def lastEntered? (accepted : List Acceptance) (field : Field) : Option String :=
  (accepted.find? fun acceptance => acceptance.field = field).bind fun acceptance =>
    Text.entered? acceptance.value

/-! ## One call -/

/-- The node after a value was entered for one of its fields. -/
def configured (node : Node) (field : Field) (value : Option String) : Node :=
  let entry := enter node.attributes field (Text.entered? value)
  { node with attributes := entry.1, definitions := entry.2.toList.map EventDefinition.timer }

section Call

variable {graph : Graph} {event : ElementId} {node : Node} {field : Field} {value : Option String}

/-- A value that may be entered is accepted, and the event is configured with it. -/
theorem configure_of_enterable (found : graph.node? event = some node)
    (isTimer : isTimerEvent node = true) (enterable : Enterable field (Text.entered? value)) :
    ∃ changed, changed.node? event = some (configured node field value) ∧
      configure graph event field value =
        .ok ((enter node.attributes field (Text.entered? value)).2, changed) := by
  let entry := enter node.attributes field (Text.entered? value)
  refine ⟨graph.updateNode event fun other => { other with
    attributes := entry.1, definitions := entry.2.toList.map EventDefinition.timer }, ?_, ?_⟩
  · rw [Graph.node?_updateNode graph event event fun _ => by rfl, if_pos rfl, found]
    rfl
  · simp only [configure, found, isTimer, checkEntry_eq_ok_iff.2 enterable, Bool.not_true,
      Bool.false_eq_true, if_false]
    rfl

/-- Any other value is refused. -/
theorem configure_of_not_enterable (found : graph.node? event = some node)
    (isTimer : isTimerEvent node = true) (malformed : ¬Enterable field (Text.entered? value)) :
    ∃ text, field = .cycle ∧ Text.entered? value = some text ∧
      configure graph event field value = .error (.malformedCycle text) := by
  obtain ⟨text, isCycle, entered, refused⟩ := checkEntry_of_not_enterable malformed
  refine ⟨text, isCycle, entered, ?_⟩
  simp only [configure, found, isTimer, refused, Bool.not_true, Bool.false_eq_true, if_false]

/-- What is entered is not blank. -/
theorem filled_entered (value : Option String) (raw : String)
    (entered : Text.entered? value = some raw) : Text.isBlankText raw = false :=
  Text.isBlankText_of_entered? entered

end Call

/-! ## Runs of calls -/

/-- A timer event bears the marks of the calls that were accepted. -/
structure Marked (accepted : List Acceptance) (node : Node) : Prop where
  isTimer : isTimerEvent node = true
  sound : Sound node.attributes
  stored : ∀ field : Field, node.attributes.get? field.attributeKey = lastEntered? accepted field
  shows : ∀ last earlier, accepted = last :: earlier →
    node.definitions = last.expression.toList.map EventDefinition.timer ∧
      Follows node.attributes last.field (Text.entered? last.value) last.expression

/-- An event without stored fields bears no marks. -/
theorem Marked.of_untouched {node : Node} (isTimer : isTimerEvent node = true)
    (untouched : ∀ field : Field, node.attributes.get? field.attributeKey = none) :
    Marked [] node where
  isTimer := isTimer
  sound :=
    ⟨fun field _ stored => (nomatch (untouched field).symm.trans stored),
      fun _ stored => (nomatch (untouched .cycle).symm.trans stored)⟩
  stored := untouched
  shows _ _ impossible := nomatch impossible

/-- A call that is accepted leaves its marks and keeps those of other fields. -/
theorem Marked.configured {accepted : List Acceptance} {node : Node} (marked : Marked accepted node)
    {field : Field} {value : Option String} (enterable : Enterable field (Text.entered? value)) :
    Marked (⟨field, value, (enter node.attributes field (Text.entered? value)).2⟩ :: accepted)
      (configured node field value) where
  isTimer := marked.isTimer
  sound := marked.sound.enter (filled_entered value) enterable
  stored other := by
    have entered := get?_enter node.attributes field other (Text.entered? value)
    by_cases same : other = field
    · rw [if_pos same] at entered
      rw [lastEntered?, List.find?_cons_of_pos (by simp [same])]
      exact entered
    · rw [if_neg same, marked.stored] at entered
      rw [lastEntered?, List.find?_cons_of_neg (by simpa using Ne.symm same)]
      exact entered
  shows last earlier isLast := by
    obtain ⟨rfl, rfl⟩ := List.cons.inj isLast
    exact ⟨rfl, marked.sound.follows_enter (filled_entered value) enterable⟩

section Run

variable {event : ElementId} {start graph : Graph} {node : Node} {accepted : List Acceptance}

/-- Each run leaves the marks of the calls that were accepted. -/
theorem Configured.exists_marked (found : start.node? event = some node)
    (isTimer : isTimerEvent node = true)
    (untouched : ∀ field : Field, node.attributes.get? field.attributeKey = none)
    (configured : Configured event start graph accepted) :
    ∃ held, graph.node? event = some held ∧ Marked accepted held := by
  induction configured with
  | start => exact ⟨node, found, .of_untouched isTimer untouched⟩
  | refused _ _ inductionHypothesis => exact inductionHypothesis
  | @accepted graph changed earlier field value expression _ done inductionHypothesis =>
      obtain ⟨held, present, marked⟩ := inductionHypothesis
      by_cases enterable : Enterable field (Text.entered? value)
      · obtain ⟨after, foundAfter, accepts⟩ :=
          configure_of_enterable present marked.isTimer enterable
        obtain ⟨rfl, rfl⟩ := Prod.mk.inj (Except.ok.inj (accepts.symm.trans done))
        exact ⟨_, foundAfter, marked.configured enterable⟩
      · obtain ⟨_, _, _, refuses⟩ := configure_of_not_enterable present marked.isTimer enterable
        cases refuses.symm.trans done

/-- A start date and a cycle lead to the same expression in either order. -/
theorem Marked.startDate_cycle (found : graph.node? event = some node)
    (marked : Marked accepted node) (date : Option String) {cycle : Option String}
    (enterable : Enterable .cycle (Text.entered? cycle)) :
    ∃ expression dated cycled dateFirst cycleFirst dateExpression cycleExpression,
      configure graph event .startDate date = .ok (dateExpression, dated) ∧
        configure dated event .cycle cycle = .ok (expression, dateFirst) ∧
        configure graph event .cycle cycle = .ok (cycleExpression, cycled) ∧
        configure cycled event .startDate date = .ok (expression, cycleFirst) := by
  have anyDate : Enterable .startDate (Text.entered? date) := fun isCycle => nomatch isCycle
  obtain ⟨dated, foundDated, setsDate⟩ := configure_of_enterable found marked.isTimer anyDate
  obtain ⟨cycled, foundCycled, setsCycle⟩ := configure_of_enterable found marked.isTimer enterable
  obtain ⟨dateFirst, _, thenCycle⟩ :=
    configure_of_enterable foundDated (marked.configured anyDate).isTimer enterable
  obtain ⟨cycleFirst, _, thenDate⟩ :=
    configure_of_enterable foundCycled (marked.configured enterable).isTimer anyDate
  have same := marked.sound.enter_startDate_cycle (filled_entered date) (filled_entered cycle)
    enterable
  refine ⟨_, dated, cycled, dateFirst, cycleFirst, _, _, setsDate, thenCycle, setsCycle, ?_⟩
  rw [thenDate]
  exact congrArg (fun expression => Except.ok (expression, cycleFirst)) same.symm

/-- At every point of a run of calls on a timer event that started without stored fields, each
field is stored as it was last entered, and the definitions are the expression that the last
accepted call returned: the duration if that call entered one, and what the stored fields stand for
otherwise. Each call is accepted unless it enters a cycle that is not a repetition. A start date
and a cycle lead to the same expression in either order. -/
theorem Configured.timer_follows_fields (found : start.node? event = some node)
    (isTimer : isTimerEvent node = true)
    (untouched : ∀ field : Field, node.attributes.get? field.attributeKey = none)
    (configured : Configured event start graph accepted) :
    ∃ held, graph.node? event = some held ∧
      (∀ field : Field, held.attributes.get? field.attributeKey = lastEntered? accepted field) ∧
      (∀ last earlier, accepted = last :: earlier →
        held.definitions = last.expression.toList.map EventDefinition.timer ∧
          Follows held.attributes last.field (Text.entered? last.value) last.expression) ∧
      (∀ field value,
        (Enterable field (Text.entered? value) →
          ∃ expression changed, configure graph event field value = .ok (expression, changed)) ∧
        (¬Enterable field (Text.entered? value) →
          ∃ cycle, field = .cycle ∧ Text.entered? value = some cycle ∧
            configure graph event field value = .error (.malformedCycle cycle))) ∧
      ∀ date cycle, Enterable .cycle (Text.entered? cycle) →
        ∃ expression dated cycled dateFirst cycleFirst dateExpression cycleExpression,
          configure graph event .startDate date = .ok (dateExpression, dated) ∧
            configure dated event .cycle cycle = .ok (expression, dateFirst) ∧
            configure graph event .cycle cycle = .ok (cycleExpression, cycled) ∧
            configure cycled event .startDate date = .ok (expression, cycleFirst) := by
  obtain ⟨held, present, marked⟩ := configured.exists_marked found isTimer untouched
  refine ⟨held, present, marked.stored, marked.shows, fun field value => ⟨?_, ?_⟩, ?_⟩
  · intro enterable
    obtain ⟨changed, _, accepts⟩ := configure_of_enterable present marked.isTimer enterable
    exact ⟨_, changed, accepts⟩
  · exact configure_of_not_enterable present marked.isTimer
  · exact fun date _ enterable => marked.startDate_cycle present date enterable

end Run

/-- A process with a single start event. -/
def soleStart : Graph :=
  (Edit.addNode ⟨"P"⟩ (.alone ⟨"S"⟩ (.event .start))).run (.new ⟨"P"⟩)

/-- A start event whose cycle was entered first, then changed without effect and anchored at a
start date, shows the anchored cycle. -/
theorem timer_follows_fields_of_anchored : ∃ graph accepted,
    Configured ⟨"S"⟩ soleStart graph accepted ∧ accepted.length = 2 ∧
      ∃ held, graph.node? ⟨"S"⟩ = some held ∧
        held.definitions = [.timer ⟨.cycle, "R2/2026-01-05/P1D"⟩] := by
  have found : soleStart.node? ⟨"S"⟩ =
      some { Node.alone ⟨"S"⟩ (.event .start) with parent := some ⟨"P"⟩ } := by
    decide
  have cycled : Configured ⟨"S"⟩ soleStart _
      [⟨.cycle, some " R2/P1D ", some ⟨.cycle, "R2/P1D"⟩⟩] :=
    .accepted .start rfl
  have unchanged := Configured.refused cycled
    (rfl : configure _ _ .cycle (some "daily") = .error (.malformedCycle "daily"))
  have anchored : Configured ⟨"S"⟩ soleStart _
      [⟨.startDate, some "2026-01-05", some ⟨.cycle, "R2/2026-01-05/P1D"⟩⟩, _] :=
    .accepted unchanged rfl
  obtain ⟨held, present, _, shows, _⟩ := anchored.timer_follows_fields found rfl
    (by rintro (_ | _ | _) <;> rfl)
  exact ⟨_, _, anchored, rfl, held, present, (shows _ _ rfl).1⟩

end BusinessProcess.TimerEvent
