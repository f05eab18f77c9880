import BusinessProcess.Proofs.History.Removal
import BusinessProcess.Proofs.Text.Trimming
import BusinessProcess.Proofs.TimerEvent.Standing

/-!
# Configuring a timer event completely or not at all

A call on a timer event checks what it was given, stores the field, works out the expression and
replaces the definitions. The checks come before the first change, so a call that is refused leaves
the process as it was, and a call that is accepted touches one attribute and the definitions of one
node, whatever these were before.
-/

namespace BusinessProcess

/-! ## One node of a process -/

namespace Graph

/-- Two changes of one node are one change. -/
theorem updateNode_updateNode (graph : Graph) (id : ElementId) {first second : Node → Node}
    (keeps : ∀ node, (first node).id = node.id) :
    (graph.updateNode id first).updateNode id second =
      graph.updateNode id fun node => second (first node) := by
  simp only [updateNode, List.map_map]
  congr 1
  refine List.map_congr_left fun node _ => ?_
  by_cases same : node.id = id
  · simp only [Function.comp_apply, same, keeps, if_true]
  · simp only [Function.comp_apply, same, if_false]

variable {graph : Graph} (distinct : graph.ids.Nodup) {id : ElementId} {node : Node}
  (found : graph.node? id = some node)
include distinct found

/-- Under distinct ids, a node has one place, and a change of it is made there only. -/
theorem exists_place : ∃ before after, graph.nodes = before ++ node :: after ∧
    ∀ change, (graph.updateNode id change).nodes = before ++ change node :: after := by
  obtain ⟨before, after, split⟩ := List.append_of_mem (mem_of_node? found)
  have nodeIds : (graph.nodes.map Node.id).Nodup := (List.nodup_append.1 distinct).1
  rw [split, List.map_append, List.map_cons, id_of_node? found, List.nodup_middle,
    List.nodup_cons, List.mem_append, not_or] at nodeIds
  obtain ⟨⟨freeBefore, freeAfter⟩, -⟩ := nodeIds
  refine ⟨before, after, split, fun change => ?_⟩
  have others : ∀ part : List Node, id ∉ part.map Node.id →
      part.map (fun node => if node.id = id then change node else node) = part := by
    intro part free
    refine (List.map_congr_left fun other member => ?_).trans (List.map_id part)
    have differs : other.id ≠ id := fun same => free (same ▸ List.mem_map_of_mem member)
    exact if_neg differs
  rw [updateNode, split, List.map_append, List.map_cons, others before freeBefore,
    others after freeAfter, if_pos (id_of_node? found)]

/-- Under distinct ids, changes that agree on the node make the same process. -/
theorem updateNode_eq_of_agree {first second : Node → Node} (agree : first node = second node) :
    graph.updateNode id first = graph.updateNode id second := by
  obtain ⟨before, after, -, placed⟩ := exists_place distinct found
  refine Graph.ext rfl ?_ rfl
  rw [placed, placed, agree]

end Graph

namespace TimerEvent

/-! ## A call step by step -/

/-- The node after what was entered for a field is stored, or erased if nothing was entered. -/
def store (field : Field) (entry : Option String) (node : Node) : Node :=
  match entry with
  | some raw => node.setAttribute field.attributeKey raw
  | none => node.eraseAttribute field.attributeKey

/-- The expression that follows from what is stored, once a field was set or cleared. -/
def follow (attributes : Attributes) (field : Field) (entry : Option String) :
    Option TimerExpression :=
  match entry with
  | some _ => expression? attributes field
  | none => fallback? attributes

/-- The checks that come before the first change: the event is there, it may wait for a time, and
what was entered may be entered. -/
def allow (graph : Graph) (event : ElementId) (field : Field) (entry : Option String) :
    Except TimerError Unit :=
  match graph.node? event with
  | none => .error (.unknownElement event)
  | some node =>
      if isTimerEvent node then checkEntry field entry else .error (.notATimerEvent event)

/-- What an allowed call does to the process, in three steps: the field is stored, the expression
is worked out from what the event keeps by then, and the definitions are replaced. -/
def perform (event : ElementId) (field : Field) (entry : Option String) :
    TimerChange (Option TimerExpression) := do
  TimerChange.apply (·.updateNode event (store field entry))
  let expression := follow (TimeLimit.attributesOf (← get) event) field entry
  TimerChange.apply (·.setDefinitions event (expression.toList.map EventDefinition.timer))
  return expression

/-- The call in its steps, each of which leaves a process behind. -/
def configureInSteps (event : ElementId) (field : Field) (value : Option String) :
    TimerChange (Option TimerExpression) := do
  match allow (← get) event field (Text.entered? value) with
  | .error error => throw error
  | .ok () => perform event field (Text.entered? value)

section Call

variable {graph : Graph} {event : ElementId} {field : Field} {value : Option String}

/-- What the checks refuse is refused. -/
theorem configure_of_refused {error : TimerError}
    (refused : allow graph event field (Text.entered? value) = .error error) :
    configure graph event field value = .error error := by
  unfold allow at refused
  split at refused
  next absent =>
    cases refused
    rw [configure, absent]
  next node found =>
    rw [configure, found]
    split at refused
    next isTimer => simp only [isTimer, refused, Bool.not_true, Bool.false_eq_true, if_false]
    next noTimer =>
      cases refused
      simp only [noTimer, Bool.not_false, if_true]

/-- What the checks allow changes the attributes and the definitions of the event. -/
theorem configure_of_allowed
    (allowed : allow graph event field (Text.entered? value) = .ok ()) :
    ∃ node, graph.node? event = some node ∧ isTimerEvent node = true ∧
      configure graph event field value =
        .ok ((enter node.attributes field (Text.entered? value)).2,
          graph.updateNode event fun other => { other with
            attributes := (enter node.attributes field (Text.entered? value)).1
            definitions := (enter node.attributes field (Text.entered? value)).2.toList.map
              EventDefinition.timer }) := by
  unfold allow at allowed
  split at allowed
  next => cases allowed
  next node found =>
    split at allowed
    next isTimer =>
      refine ⟨node, found, isTimer, ?_⟩
      simp only [configure, found, isTimer, allowed, Bool.not_true, Bool.false_eq_true, if_false]
    next => cases allowed

/-- A field is entered by storing it and working out what follows. -/
theorem enter_eq (node : Node) (field : Field) (entry : Option String) :
    enter node.attributes field entry =
      ((store field entry node).attributes,
        follow (store field entry node).attributes field entry) := by
  cases entry <;> rfl

@[simp] theorem id_store (field : Field) (entry : Option String) (node : Node) :
    (store field entry node).id = node.id := by
  cases entry <;> rfl

/-- The three steps enter the field and make the expression the one definition. -/
theorem perform_eq (distinct : graph.ids.Nodup) {node : Node}
    (found : graph.node? event = some node) (entry : Option String) :
    perform event field entry graph =
      .ok (enter node.attributes field entry).2 (graph.updateNode event fun other =>
        { other with
          attributes := (enter node.attributes field entry).1
          definitions := (enter node.attributes field entry).2.toList.map
            EventDefinition.timer }) := by
  let stored := graph.updateNode event (store field entry)
  have held : stored.node? event = some (store field entry node) := by
    rw [Graph.node?_updateNode graph event event (id_store field entry), if_pos rfl, found,
      Option.map_some]
  have attributes : TimeLimit.attributesOf stored event =
      (store field entry node).attributes := by
    rw [TimeLimit.attributesOf, held]
  have inSteps : perform event field entry graph =
      (let expression := follow (TimeLimit.attributesOf stored event) field entry
      .ok expression (stored.setDefinitions event
        (expression.toList.map EventDefinition.timer))) :=
    rfl
  rw [inSteps, attributes, enter_eq]
  dsimp only
  rw [Graph.setDefinitions, Graph.updateNode_updateNode graph event (id_store field entry)]
  congr 1
  apply Graph.updateNode_eq_of_agree distinct found
  cases entry <;> rfl

/-- Made step by step, a call comes to the same, and it leaves the process as it was where it is
refused. -/
theorem configureInSteps_eq (distinct : graph.ids.Nodup) (event : ElementId) (field : Field)
    (value : Option String) :
    configureInSteps event field value graph =
      match configure graph event field value with
      | .ok (expression, changed) => .ok expression changed
      | .error error => .error error graph := by
  rw [configureInSteps, TimerChange.bind_of_ok (TimerChange.get_eq graph)]
  cases checked : allow graph event field (Text.entered? value) with
  | error error =>
      rw [configure_of_refused checked]
      rfl
  | ok _ =>
      obtain ⟨node, found, _, done⟩ := configure_of_allowed checked
      rw [done]
      exact perform_eq distinct found (Text.entered? value)

end Call

/-! ## What becomes of a call -/

/-- Why a call is refused: there is no such node, the node may not wait for a time, or what was
entered for the cycle is no repetition. -/
inductive Refused (graph : Graph) (event : ElementId) (field : Field) (entry : Option String) :
    TimerError → Prop
  | unknown (absent : graph.node? event = none) :
      Refused graph event field entry (.unknownElement event)
  | noTimer {node : Node} (found : graph.node? event = some node)
      (noStart : node.kind ≠ .event .start) (noCatch : node.kind ≠ .event .intermediateCatch) :
      Refused graph event field entry (.notATimerEvent event)
  | malformed {node : Node} {text : String} (found : graph.node? event = some node)
      (isTimer : node.kind = .event .start ∨ node.kind = .event .intermediateCatch)
      (isCycle : field = .cycle) (entered : entry = some text)
      (noRepetition : ¬ ∃ count period, IsRepetition text count period) :
      Refused graph event field entry (.malformedCycle text)

/-- The attributes before and after a field was entered. The field holds the entry, in the place
that it had or else last, or it is gone if nothing was entered, and all other attributes are as
before. -/
structure Records (field : Field) (entry : Option String) (before after : Attributes) : Prop where
  stored : after.get? field.attributeKey = entry
  others : ∀ key, key ≠ field.attributeKey → after.get? key = before.get? key
  keys : after.keys =
    if entry = none then before.keys.filter (· ≠ field.attributeKey)
    else if field.attributeKey ∈ before.keys then before.keys
    else before.keys ++ [field.attributeKey]

/-- What an accepted call makes of a process: one node, in its place, records the entry and has the
expression as its one definition, or none. -/
inductive Configures (graph : Graph) (event : ElementId) (field : Field) (entry : Option String)
    (expression : Option TimerExpression) : Graph → Prop
  | inPlace {before after : List Node} {node : Node} {attributes : Attributes}
      (place : graph.nodes = before ++ node :: after) (named : node.id = event)
      (records : Records field entry node.attributes attributes) :
      Configures graph event field entry expression
        { graph with nodes := before ++
            { node with
              attributes := attributes
              definitions := expression.toList.map EventDefinition.timer } :: after }

/-- Entering a field records the entry. -/
theorem records_enter (attributes : Attributes) (field : Field) (entry : Option String) :
    Records field entry attributes (enter attributes field entry).1 := by
  cases entry with
  | none =>
      refine ⟨?_, fun key other => ?_, ?_⟩
      · rw [enter, Store.get?_erase, if_pos rfl]
      · rw [enter, Store.get?_erase, if_neg other]
      · rw [enter, Store.keys_erase, if_pos rfl]
  | some raw =>
      refine ⟨?_, fun key other => ?_, ?_⟩
      · rw [enter, Store.get?_insert, if_pos rfl]
      · rw [enter, Store.get?_insert, if_neg other]
      · rw [enter, Store.keys_insert, if_neg (Option.some_ne_none raw)]

section Call

variable {graph : Graph} {event : ElementId} {field : Field}

theorem isTimerEvent_iff {node : Node} : isTimerEvent node = true ↔
    node.kind = .event .start ∨ node.kind = .event .intermediateCatch := by
  simp [isTimerEvent]

/-- The checks refuse a call for these reasons only, and for each with its own error. -/
theorem allow_eq_error_iff {entry : Option String} {error : TimerError} :
    allow graph event field entry = .error error ↔ Refused graph event field entry error := by
  unfold allow
  constructor
  · intro refused
    split at refused
    next absent =>
      cases refused
      exact .unknown absent
    next node found =>
      split at refused
      next isTimer =>
        by_cases enterable : Enterable field entry
        · rw [checkEntry_eq_ok_iff.2 enterable] at refused
          cases refused
        · obtain ⟨text, isCycle, entered, malformed⟩ := checkEntry_of_not_enterable enterable
          rw [malformed] at refused
          cases refused
          refine .malformed found (isTimerEvent_iff.1 isTimer) isCycle entered fun repeats => ?_
          apply enterable
          rintro - cycle isText
          cases entered.symm.trans isText
          exact repeats
      next noTimer =>
        cases refused
        rw [isTimerEvent_iff, not_or] at noTimer
        exact .noTimer found noTimer.1 noTimer.2
  · rintro (absent | ⟨found, noStart, noCatch⟩ | ⟨found, isTimer, isCycle, rfl, noRepetition⟩)
    · rw [absent]
    · rw [found]
      exact if_neg fun isTimer => (isTimerEvent_iff.1 isTimer).elim noStart noCatch
    · rw [found]
      dsimp only
      rw [if_pos (isTimerEvent_iff.2 isTimer)]
      obtain ⟨text, -, entered, malformed⟩ := checkEntry_of_not_enterable
        fun enterable => noRepetition (enterable isCycle _ rfl)
      cases entered
      exact malformed

/-- A call is refused exactly if its checks refuse it. -/
theorem configure_eq_error_iff {value : Option String} {error : TimerError} :
    configure graph event field value = .error error ↔
      Refused graph event field (Text.entered? value) error := by
  rw [← allow_eq_error_iff]
  constructor
  · intro refused
    cases checked : allow graph event field (Text.entered? value) with
    | error other =>
        cases (configure_of_refused checked).symm.trans refused
        rfl
    | ok _ =>
        obtain ⟨node, _, _, done⟩ := configure_of_allowed checked
        cases done.symm.trans refused
  · exact configure_of_refused

/-- An accepted call changes the event in its place. -/
theorem configures_of_ok (distinct : graph.ids.Nodup) {value : Option String}
    {expression : Option TimerExpression} {changed : Graph}
    (done : configure graph event field value = .ok (expression, changed)) :
    Configures graph event field (Text.entered? value) expression changed := by
  cases checked : allow graph event field (Text.entered? value) with
  | error error => cases (configure_of_refused checked).symm.trans done
  | ok _ =>
      obtain ⟨node, found, _, accepts⟩ := configure_of_allowed checked
      obtain ⟨rfl, rfl⟩ := Prod.mk.inj (Except.ok.inj (accepts.symm.trans done))
      obtain ⟨before, after, place, placed⟩ := Graph.exists_place distinct found
      have configured : Configures graph event field _
          (enter node.attributes field (Text.entered? value)).2 _ :=
        .inPlace place (Graph.id_of_node? found)
          (records_enter node.attributes field (Text.entered? value))
      rw [← placed fun other => { other with
        attributes := (enter node.attributes field (Text.entered? value)).1
        definitions := (enter node.attributes field (Text.entered? value)).2.toList.map
          EventDefinition.timer }] at configured
      exact configured

end Call

end TimerEvent

open TimerEvent

/-- In every reached process a call on a timer event is refused exactly if there is no such node,
the node may not wait for a time, or the cycle entered is no repetition, in this order. Made step
by step it leaves the process as it was if it is refused. If it is accepted, it records the entry
on the event and makes the expression that it answers the one definition, and nothing else in the
process changes. -/
theorem Reached.configure_all_or_nothing {policy : Policy} {root : ElementId} {ledger : Ledger}
    (reached : Reached policy root ledger) (event : ElementId) (field : Field)
    (value : Option String) :
    ∃ entry, Text.Entered value entry ∧
      (∀ error, configure ledger.graph event field value = .error error ↔
        Refused ledger.graph event field entry error) ∧
      (∀ error left, configureInSteps event field value ledger.graph = .error error left →
        configure ledger.graph event field value = .error error ∧ left = ledger.graph) ∧
      ∀ expression changed,
        configure ledger.graph event field value = .ok (expression, changed) →
          configureInSteps event field value ledger.graph = .ok expression changed ∧
            Configures ledger.graph event field entry expression changed := by
  have distinct := reached.sound.wellFormed.distinct
  have inSteps := configureInSteps_eq distinct event field value
  refine ⟨Text.entered? value, Text.entered_entered? value, fun _ => configure_eq_error_iff,
    fun error left stopped => ?_, fun expression changed done => ?_⟩
  · rw [inSteps] at stopped
    split at stopped
    next => cases stopped
    next refused =>
      cases stopped
      exact ⟨refused, rfl⟩
  · rw [done] at inSteps
    exact ⟨inSteps, configures_of_ok distinct done⟩

/-- A start event that was given a cycle which is no repetition and two definitions by hand takes a
start date in spite of them, and keeps them where a cycle is refused. -/
theorem configure_of_unkempt_event : ∃ ledger, Reached ⟨true, true⟩ ⟨"P"⟩ ledger ∧
    (ledger.graph.node? ⟨"S"⟩).map Node.definitions = some [.message, .signal] ∧
    (∃ left, configureInSteps ⟨"S"⟩ .cycle (some " R2/ ") ledger.graph =
      .error (.malformedCycle "R2/") left ∧ left = ledger.graph) ∧
    ∃ changed, configure ledger.graph ⟨"S"⟩ .startDate (some "\u00a02026-01-05 ") =
        .ok (some ⟨.date, "2026-01-05"⟩, changed) ∧
      Configures ledger.graph ⟨"S"⟩ .startDate (some "2026-01-05")
        (some ⟨.date, "2026-01-05"⟩) changed := by
  let built := (((Ledger.new ⟨"P"⟩).record (.addNode ⟨"P"⟩ (.alone ⟨"S"⟩ (.event .start)))).record
    (.changeAttributes ⟨"S"⟩ fun attributes => attributes.insert "timeLimit:loopTime" "daily")).record
    (.setDefinitions ⟨"S"⟩ [.message, .signal])
  have isBuilt : Reached ⟨true, true⟩ ⟨"P"⟩ built :=
    .edit (.edit (Reached.new.addAlone _ _ _) trivial) trivial
  refine ⟨built, isBuilt, by decide, ?_, ?_⟩
  · obtain ⟨entry, -, -, untouched, -⟩ :=
      isBuilt.configure_all_or_nothing ⟨"S"⟩ .cycle (some " R2/ ")
    obtain ⟨left, stopped⟩ : ∃ left, configureInSteps ⟨"S"⟩ .cycle (some " R2/ ") built.graph =
        .error (.malformedCycle "R2/") left :=
      ⟨_, rfl⟩
    exact ⟨left, stopped, (untouched _ _ stopped).2⟩
  · obtain ⟨entry, entered, -, -, configures⟩ :=
      isBuilt.configure_all_or_nothing ⟨"S"⟩ .startDate (some "\u00a02026-01-05 ")
    obtain ⟨changed, done⟩ : ∃ changed, configure built.graph ⟨"S"⟩ .startDate
        (some "\u00a02026-01-05 ") = .ok (some ⟨.date, "2026-01-05"⟩, changed) :=
      ⟨_, rfl⟩
    have isEntry : entry = some "2026-01-05" :=
      entered.unique (Text.entered_entered? (some "\u00a02026-01-05 "))
    rw [isEntry] at configures
    exact ⟨changed, done, (configures _ _ done).2⟩

end BusinessProcess
