import BusinessProcess.Proofs.TimeLimit.Script

/-!
# Changes of time limits turn dials

A whole change of a time limit is followed on the board: a process that displays a board is left
displaying the board on which the dial of the activity was turned, and the outcome is the one that
the dial tells.
-/

namespace BusinessProcess.TimeLimit

open BusinessProcess.Graph

/-- A limit that is reached is installed if it is due, and else uninstalled with all after it. -/
theorem refresh_cons_apply (delegate : String) (container activity : ElementId)
    (limit : TimeLimit) (rest : List TimeLimit) (graph : Graph) :
    refresh delegate container activity true (limit :: rest) graph =
      (match due? (attributesOf graph activity) limit with
        | some setting => do
            install delegate container activity setting
            refresh delegate container activity true rest
        | none => do
            uninstall activity limit
            refresh delegate container activity false rest) graph :=
  rfl

section Change

variable {delegate : String} {graph middle left : Graph} {activity container : ElementId}
  {limit : TimeLimit} {value : Option String} {raw : String} {expression : TimerExpression}

/-- A change is refused where no container owns the elements of the limit. -/
theorem change_of_unowned {error : TimerError}
    (unowned : owningContainer graph activity = .error error) :
    limit.change delegate activity value graph = .error error graph := by
  rw [change, TimerChange.bind_of_ok (TimerChange.get_eq graph)]
  simp only [unowned]
  rfl

/-- Entering nothing erases the value, uninstalls the limit and leaves those after it without a
limit before them. -/
theorem change_of_empty (owning : owningContainer graph activity = .ok container)
    (entered : Text.entered? value = none)
    (uninstalled : uninstall activity limit
      (graph.updateNode activity (·.eraseAttribute limit.attributeKey)) = .ok () middle)
    (refreshed : refresh delegate container activity false limit.dependents middle = .ok () left) :
    limit.change delegate activity value graph = .ok .removed left := by
  have erased : TimerChange.apply
      (·.updateNode activity (·.eraseAttribute limit.attributeKey)) graph = .ok () _ :=
    rfl
  rw [change, TimerChange.bind_of_ok (TimerChange.get_eq graph)]
  simp only [owning, entered]
  rw [TimerChange.bind_of_ok erased, TimerChange.bind_of_ok uninstalled,
    TimerChange.bind_of_ok refreshed]
  rfl

/-- Entering a value that cannot be worked out changes nothing. -/
theorem change_of_obstacle {obstacle : Obstacle}
    (owning : owningContainer graph activity = .ok container)
    (entered : Text.entered? value = some raw)
    (failed : derive (attributesOf graph activity) limit raw = .error obstacle) :
    limit.change delegate activity value graph = .ok (.skipped obstacle) graph := by
  rw [change, TimerChange.bind_of_ok (TimerChange.get_eq graph)]
  simp only [owning, entered, failed]
  rfl

/-- Entering a value that can be worked out keeps it, installs the limit and works out those after
it again. -/
theorem change_of_derived (owning : owningContainer graph activity = .ok container)
    (entered : Text.entered? value = some raw)
    (done : derive (attributesOf graph activity) limit raw = .ok expression)
    (installed : install delegate container activity ⟨limit, raw, expression⟩
      (graph.updateNode activity (·.setAttribute limit.attributeKey raw)) = .ok () middle)
    (refreshed : refresh delegate container activity true limit.dependents middle = .ok () left) :
    limit.change delegate activity value graph =
      .ok (.installed ⟨limit, raw, expression⟩) left := by
  have kept : TimerChange.apply
      (·.updateNode activity (·.setAttribute limit.attributeKey raw)) graph = .ok () _ :=
    rfl
  rw [change, TimerChange.bind_of_ok (TimerChange.get_eq graph)]
  simp only [owning, entered, done]
  rw [TimerChange.bind_of_ok kept, TimerChange.bind_of_ok installed,
    TimerChange.bind_of_ok refreshed]
  rfl

end Change

namespace Displays

section Activity

variable {delegate : String} {start graph : Graph} {board : Board}
  {activity : Node} (limitable : Limitable start activity)

include limitable

/-- A change of the attributes of an activity changes them on its dial. -/
theorem changeAttributes (displays : Displays delegate start board graph)
    (change : Attributes → Attributes) :
    Displays delegate start
      (board.turn activity.id fun dial => { dial with attributes := change dial.attributes })
      (graph.updateNode activity.id fun node =>
        { node with attributes := change node.attributes }) := by
  have face : ∀ id, (graph.updateNode activity.id fun node =>
      { node with attributes := change node.attributes }).face? id =
        if id = activity.id then
          (graph.face? id).map (Element.mapNode fun node =>
            { node with attributes := change node.attributes })
        else graph.face? id :=
    fun id => face?_updateNode graph activity.id id _ (fun _ => rfl) fun _ => rfl
  refine ⟨displays.wellFormed.of_sameShape (sameShape_updateNode graph activity.id fun _ => rfl),
    displays.root, ?_, ?_⟩
  · intro task taskMember isTask limit part
    have elsewhere : part.id limit task.id ≠ activity.id :=
      fun same => limitable.unlimited.node_apart limitable.member task taskMember isTask limit part
        same.symm
    rw [face, if_neg elsewhere, displays.parts task taskMember isTask limit part]
    by_cases same : task.id = activity.id
    · rw [same, Board.turn_self]
    · rw [Board.turn_of_ne board same]
  · intro id apart
    rw [face]
    by_cases isHere : id = activity.id
    · subst isHere
      have startFace := face?_of_node_mem limitable.wellFormed.distinct limitable.member
      rw [if_pos rfl, displays.face?_of_node limitable.unlimited limitable.wellFormed.distinct
        limitable.member, startFace]
      simp only [Option.map_some, Board.paint, Element.mapNode, Board.paintNode, Node.id_face,
        show activity.face.kind.isActivity = true from limitable.isActivity, if_true,
        Board.turn_self]
    · rw [if_neg isHere, displays.others id apart]
      cases found : start.face? id with
      | none => rfl
      | some face =>
          obtain ⟨element, _, rfl, rfl⟩ := exists_of_face? found
          cases element with
          | flow flow => rfl
          | node node =>
              have away : node.id ≠ activity.id := isHere
              simp only [Option.map_some, Board.paint, Element.face, Element.mapNode,
                Board.paintNode, Node.id_face, Board.turn_of_ne board away]

/-- The attributes of an activity are those on its dial. -/
theorem attributesOf_eq (displays : Displays delegate start board graph) :
    attributesOf graph activity.id = (board activity.id).attributes := by
  obtain ⟨held, found, _, _, attributes⟩ :=
    displays.exists_node limitable.unlimited limitable.wellFormed.distinct limitable.member
  simp only [attributesOf, found, attributes limitable.isActivity]

/-- Working out limits again takes its steps and turns the dial of the activity. -/
theorem refresh (displays : Displays delegate start board graph) {container : ElementId}
    (held : activity.parent = some container) (reached : Bool) (limits : List TimeLimit) :
    TimeLimit.refresh delegate container activity.id reached limits graph =
        .ok () (runSteps delegate container activity.id
          (refreshSteps (board activity.id).attributes reached limits) graph) ∧
      Displays delegate start (board.turn activity.id (·.refresh reached limits))
        (runSteps delegate container activity.id
          (refreshSteps (board activity.id).attributes reached limits) graph) := by
  induction limits generalizing graph board reached with
  | nil =>
      refine ⟨by cases reached <;> rfl, ?_⟩
      rw [Board.turn_eq_self]
      · cases reached <;> exact displays
      · cases reached <;> rfl
  | cons limit rest inductionHypothesis =>
      -- A limit that is not worked out is uninstalled, and so are those after it.
      have missing : (TimeLimit.uninstall activity.id limit >>= fun _ =>
          TimeLimit.refresh delegate container activity.id false rest) graph =
            .ok () (runSteps delegate container activity.id (.uninstall limit ::
              refreshSteps (board activity.id).attributes false rest) graph) ∧
          Displays delegate start
            (board.turn activity.id fun dial => (dial.put limit none).refresh false rest)
            (runSteps delegate container activity.id (.uninstall limit ::
              refreshSteps (board activity.id).attributes false rest) graph) := by
        obtain ⟨uninstalled, middleDisplays⟩ := displays.uninstall limitable limit
        obtain ⟨refreshed, leftDisplays⟩ := inductionHypothesis middleDisplays false
        rw [Board.turn_self, Dial.attributes_put] at refreshed leftDisplays
        rw [Board.turn_turn] at leftDisplays
        exact ⟨(TimerChange.bind_of_ok uninstalled).trans refreshed, leftDisplays⟩
      cases reached with
      | false => exact missing
      | true =>
          rw [refresh_cons_apply, displays.attributesOf_eq limitable, refreshSteps]
          cases due : due? (board activity.id).attributes limit with
          | none =>
              have dial : (board activity.id).refresh true (limit :: rest) =
                  ((board activity.id).put limit none).refresh false rest := by
                rw [Dial.refresh, due]
              have turned : board.turn activity.id (·.refresh true (limit :: rest)) =
                  board.turn activity.id fun dial => (dial.put limit none).refresh false rest :=
                board.turn_congr dial
              rw [turned]
              exact missing
          | some setting =>
              have dial : (board activity.id).refresh true (limit :: rest) =
                  ((board activity.id).put setting.limit
                    (some setting.expression)).refresh true rest := by
                rw [Dial.refresh, due, limit_of_due? due]
              obtain ⟨installed, middleDisplays⟩ :=
                displays.install limitable held setting
              obtain ⟨refreshed, leftDisplays⟩ := inductionHypothesis middleDisplays true
              rw [Board.turn_self, Dial.attributes_put] at refreshed leftDisplays
              rw [Board.turn_turn] at leftDisplays
              have turned : board.turn activity.id (·.refresh true (limit :: rest)) =
                  board.turn activity.id fun dial =>
                    (dial.put setting.limit (some setting.expression)).refresh true rest :=
                board.turn_congr dial
              rw [turned]
              exact ⟨(TimerChange.bind_of_ok installed).trans refreshed, leftDisplays⟩

/-- An activity has a container, which owns the elements of its limits. -/
theorem exists_container (displays : Displays delegate start board graph) :
    ∃ container, activity.parent = some container ∧
      owningContainer graph activity.id = .ok container := by
  have isActivity := limitable.isActivity
  obtain ⟨container, parent⟩ :=
    limitable.wellFormed.exists_parent limitable.member isActivity
  obtain ⟨held, found, kind, sameParent, _⟩ :=
    displays.exists_node limitable.unlimited limitable.wellFormed.distinct limitable.member
  refine ⟨container, parent, ?_⟩
  rw [← kind] at isActivity
  simp only [owningContainer, found, isActivity, if_true, sameParent, parent]

/-- Entering a value for a limit takes its steps and turns the dial of the activity, with the
outcome that the dial tells. -/
theorem change_eq (displays : Displays delegate start board graph) {container : ElementId}
    (held : activity.parent = some container) (limit : TimeLimit) (value : Option String) :
    limit.change delegate activity.id value graph =
        .ok ((board activity.id).enter limit value).1 (runSteps delegate container activity.id
          (enterSteps (board activity.id).attributes limit value) graph) ∧
      Displays delegate start (board.turn activity.id fun dial => (dial.enter limit value).2)
        (runSteps delegate container activity.id
          (enterSteps (board activity.id).attributes limit value) graph) := by
  obtain ⟨owner, owned, owning⟩ := displays.exists_container limitable
  obtain rfl : container = owner := Option.some.inj (held.symm.trans owned)
  have attributes := displays.attributesOf_eq limitable
  cases entered : Text.entered? value with
  | none =>
      have cleared := displays.changeAttributes limitable (·.erase limit.attributeKey)
      obtain ⟨uninstalled, middleDisplays⟩ := cleared.uninstall limitable limit
      obtain ⟨refreshed, leftDisplays⟩ :=
        middleDisplays.refresh limitable held false limit.dependents
      have dial : (board activity.id).enter limit value =
          (.removed, (board activity.id).clear limit) := by
        simp only [Dial.enter, entered]
      have turned : board.turn activity.id (fun dial => (dial.enter limit value).2) =
          board.turn activity.id (·.clear limit) :=
        board.turn_congr (congrArg Prod.snd dial)
      have steps : enterSteps (board activity.id).attributes limit value =
          .describe (·.erase limit.attributeKey) :: .uninstall limit ::
            refreshSteps ((board activity.id).attributes.erase limit.attributeKey) false
              limit.dependents := by
        simp only [enterSteps, entered]
      rw [Board.turn_turn, Board.turn_turn] at leftDisplays
      rw [Board.turn_turn, Board.turn_self] at refreshed leftDisplays
      rw [dial, turned, steps]
      exact ⟨change_of_empty owning entered uninstalled refreshed, leftDisplays⟩
  | some raw =>
      cases done : derive (board activity.id).attributes limit raw with
      | error obstacle =>
          have dial : (board activity.id).enter limit value = (.skipped obstacle,
              board activity.id) := by
            simp only [Dial.enter, entered, done]
          have steps : enterSteps (board activity.id).attributes limit value = [] := by
            simp only [enterSteps, entered, done]
          rw [dial, steps, board.turn_eq_self (congrArg Prod.snd dial)]
          exact ⟨change_of_obstacle owning entered (attributes ▸ done), displays⟩
      | ok expression =>
          have kept := displays.changeAttributes limitable (·.insert limit.attributeKey raw)
          obtain ⟨installed, middleDisplays⟩ :=
            kept.install limitable held ⟨limit, raw, expression⟩
          obtain ⟨refreshed, leftDisplays⟩ :=
            middleDisplays.refresh limitable held true limit.dependents
          have dial : (board activity.id).enter limit value =
              (.installed ⟨limit, raw, expression⟩,
                (board activity.id).set limit raw expression) := by
            simp only [Dial.enter, entered, done]
          have turned : board.turn activity.id (fun dial => (dial.enter limit value).2) =
              board.turn activity.id (·.set limit raw expression) :=
            board.turn_congr (congrArg Prod.snd dial)
          have steps : enterSteps (board activity.id).attributes limit value =
              .describe (·.insert limit.attributeKey raw) ::
                .install ⟨limit, raw, expression⟩ ::
                refreshSteps ((board activity.id).attributes.insert limit.attributeKey raw) true
                  limit.dependents := by
            simp only [enterSteps, entered, done]
          rw [Board.turn_turn, Board.turn_turn] at leftDisplays
          rw [Board.turn_turn, Board.turn_self] at refreshed leftDisplays
          rw [dial, turned, steps]
          exact ⟨change_of_derived owning entered (attributes ▸ done) installed refreshed,
            leftDisplays⟩

/-- Entering a value for a limit turns the dial of the activity, with the outcome that the dial
tells. -/
theorem change (displays : Displays delegate start board graph) (limit : TimeLimit)
    (value : Option String) :
    ∃ left, limit.change delegate activity.id value graph =
        .ok ((board activity.id).enter limit value).1 left ∧
      Displays delegate start
        (board.turn activity.id fun dial => (dial.enter limit value).2) left := by
  obtain ⟨container, held, _⟩ := displays.exists_container limitable
  exact ⟨_, displays.change_eq limitable held limit value⟩

end Activity

/-! ## The start and the refusals -/

/-- At the start no timer is shown, and each activity keeps what it keeps. -/
theorem initially (delegate : String) {start : Graph} (wellFormed : start.WellFormed)
    (unlimited : Unlimited start) :
    Displays delegate start (fun id => ⟨attributesOf start id, fun _ => none⟩) start where
  wellFormed := wellFormed
  root := rfl
  parts := by
    intro activity member isActivity limit part
    exact face?_eq_none_iff.2 (unlimited activity member isActivity limit part)
  others := by
    intro id _
    cases found : start.face? id with
    | none => rfl
    | some face =>
        obtain ⟨element, member, rfl, rfl⟩ := exists_of_face? found
        cases element with
        | flow flow => rfl
        | node node =>
            have attributes : attributesOf start node.id = node.attributes := by
              simp only [attributesOf,
                node?_of_mem wellFormed.distinct (node_mem_elements.1 member)]
            simp only [Option.map_some, Board.paint, Element.face, Element.mapNode,
              Board.paintNode, Node.id_face, attributes]
            split <;> rfl

/-- A node that is no activity carries no time limits, and nothing is changed. -/
theorem change_of_not_isActivity {delegate : String} {start graph : Graph} {board : Board}
    (displays : Displays delegate start board graph) (unlimited : Unlimited start)
    (distinct : start.ids.Nodup) {node : Node} (member : node ∈ start.nodes)
    (isOther : node.kind.isActivity = false) (limit : TimeLimit) (value : Option String) :
    limit.change delegate node.id value graph = .error (.notAnActivity node.id) graph := by
  obtain ⟨held, found, kind, _⟩ := displays.exists_node unlimited distinct member
  rw [← kind] at isOther
  refine change_of_unowned ?_
  simp [owningContainer, found, isOther]

end Displays

end BusinessProcess.TimeLimit
