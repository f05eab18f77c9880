import BusinessProcess.Proofs.TimeLimit.Simulation

/-!
# What changes of timers keep

A change of several steps may be refused on the way, and what it made of the process until then
stays. A relation between two processes on which the same change is made is kept by the whole
change, wherever it stops, if each of its steps keeps it and answers the same on both. A property of
one process is such a relation of the process with itself.
-/

namespace BusinessProcess

namespace TimerChange

variable {α β : Type}

/-- On related processes the change answers the same and leaves related processes. -/
def Tracks (related : Graph → Graph → Prop) (change : TimerChange α) : Prop :=
  ∀ graph other, related graph other →
    change.answer graph = change.answer other ∧ related (change.left graph) (change.left other)

/-- Whatever the change does and wherever it stops, it leaves the property. -/
def Keeps (property : Graph → Prop) (change : TimerChange α) : Prop :=
  ∀ graph, property graph → property (change.left graph)

/-- A process that has the property is related to itself. -/
def Alone (property : Graph → Prop) (graph other : Graph) : Prop :=
  graph = other ∧ property graph

theorem keeps_iff_tracks {property : Graph → Prop} {change : TimerChange α} :
    Keeps property change ↔ Tracks (Alone property) change := by
  constructor
  · rintro keeps graph _ ⟨rfl, holds⟩
    exact ⟨rfl, rfl, keeps graph holds⟩
  · exact fun tracks graph holds => (tracks graph graph ⟨rfl, holds⟩).2.2

namespace Tracks

variable {related : Graph → Graph → Prop}

theorem pure (value : α) : Tracks related (Pure.pure value : TimerChange α) :=
  fun _ _ holds => ⟨rfl, holds⟩

/-- What is done next may depend on the answer, which is the same for both processes. -/
theorem bind {first : TimerChange α} {next : α → TimerChange β} (tracked : Tracks related first)
    (rest : ∀ value, Tracks related (next value)) : Tracks related (first >>= next) := by
  intro graph other holds
  obtain ⟨sameAnswer, middle⟩ := tracked graph other holds
  unfold TimerChange.left TimerChange.answer at *
  cases done : first graph with
  | ok value left =>
      cases otherDone : first other with
      | ok otherValue otherLeft =>
          rw [done, otherDone] at sameAnswer middle
          obtain rfl : value = otherValue := Except.ok.inj sameAnswer
          rw [bind_of_ok done, bind_of_ok otherDone]
          exact rest value left otherLeft middle
      | error error otherLeft =>
          rw [done, otherDone] at sameAnswer
          cases sameAnswer
  | error error left =>
      cases otherDone : first other with
      | ok otherValue otherLeft =>
          rw [done, otherDone] at sameAnswer
          cases sameAnswer
      | error otherError otherLeft =>
          rw [done, otherDone] at sameAnswer middle
          obtain rfl : error = otherError := Except.error.inj sameAnswer
          rw [bind_of_error done, bind_of_error otherDone]
          exact ⟨rfl, middle⟩

/-- What is read off the process and is the same for both may decide what is done. -/
theorem read (read : Graph → α) (next : α → TimerChange β)
    (same : ∀ graph other, related graph other → read graph = read other)
    (rest : ∀ value, Tracks related (next value)) :
    Tracks related fun graph => next (read graph) graph := by
  intro graph other holds
  have tracked := rest (read graph) graph other holds
  simp only [TimerChange.left, TimerChange.answer, ← same graph other holds] at tracked ⊢
  exact tracked

/-- A change that is refused changes nothing. -/
theorem attempt {change : Graph → Except GraphError Graph}
    (refused : ∀ graph other error, related graph other →
      (change graph = .error error ↔ change other = .error error))
    (made : ∀ graph other changed otherChanged, related graph other →
      change graph = .ok changed → change other = .ok otherChanged →
        related changed otherChanged) :
    Tracks related (.attempt change) := by
  intro graph other holds
  unfold TimerChange.left TimerChange.answer TimerChange.attempt
  cases done : change graph with
  | error error =>
      rw [(refused graph other error holds).1 done]
      exact ⟨rfl, holds⟩
  | ok changed =>
      cases otherDone : change other with
      | error error =>
          rw [(refused graph other error holds).2 otherDone] at done
          cases done
      | ok otherChanged => exact ⟨rfl, made graph other changed otherChanged holds done otherDone⟩

theorem apply {change : Graph → Graph}
    (made : ∀ graph other, related graph other → related (change graph) (change other)) :
    Tracks related (.apply change) :=
  fun graph other holds => ⟨rfl, made graph other holds⟩

end Tracks

namespace Keeps

variable {property : Graph → Prop}

theorem pure (value : α) : Keeps property (Pure.pure value : TimerChange α) :=
  fun _ holds => holds

theorem bind {first : TimerChange α} {next : α → TimerChange β} (kept : Keeps property first)
    (rest : ∀ value, Keeps property (next value)) : Keeps property (first >>= next) :=
  keeps_iff_tracks.2
    ((keeps_iff_tracks.1 kept).bind fun value => keeps_iff_tracks.1 (rest value))

/-- A change that is refused changes nothing, so only what it makes of a process counts. -/
theorem attempt {change : Graph → Except GraphError Graph}
    (made : ∀ graph changed, property graph → change graph = .ok changed → property changed) :
    Keeps property (.attempt change) := by
  refine keeps_iff_tracks.2 (.attempt ?_ ?_)
  · rintro graph _ error ⟨rfl, _⟩
    exact Iff.rfl
  · rintro graph _ changed otherChanged ⟨rfl, holds⟩ done otherDone
    obtain rfl : changed = otherChanged := Except.ok.inj (done.symm.trans otherDone)
    exact ⟨rfl, made graph changed holds done⟩

end Keeps

end TimerChange

namespace TimeLimit

open TimerChange

section Change

variable {delegate : String} {activity container : ElementId}

/-- Views of a node that show its attributes tell the attributes. -/
theorem attributesOf_congr {graph other : Graph} (view : Node → Node)
    (shows : ∀ node, (view node).attributes = node.attributes)
    (same : (graph.node? activity).map view = (other.node? activity).map view) :
    attributesOf graph activity = attributesOf other activity := by
  have reads : ∀ process : Graph, attributesOf process activity =
      (((process.node? activity).map view).map Node.attributes).getD .empty := by
    intro process
    cases found : process.node? activity with
    | none => simp only [attributesOf, found, Option.map_none, Option.getD_none]
    | some node => simp only [attributesOf, found, Option.map_some, Option.getD_some, shows]
  rw [reads, reads, same]

/-- Views of a node that show its kind and its parent tell the container of its limits. -/
theorem owningContainer_congr {graph other : Graph} (view : Node → Node)
    (showsKind : ∀ node, (view node).kind = node.kind)
    (showsParent : ∀ node, (view node).parent = node.parent)
    (same : (graph.node? activity).map view = (other.node? activity).map view) :
    owningContainer graph activity = owningContainer other activity := by
  unfold owningContainer
  cases found : graph.node? activity with
  | none =>
      rw [found, Option.map_none, eq_comm, Option.map_eq_none_iff] at same
      rw [same]
  | some node =>
      rw [found, Option.map_some, eq_comm, Option.map_eq_some_iff] at same
      obtain ⟨twin, twinFound, alike⟩ := same
      have kind : twin.kind = node.kind := by rw [← showsKind, alike, showsKind]
      have parent : twin.parent = node.parent := by rw [← showsParent, alike, showsParent]
      simp only [twinFound, kind, parent]

/-- The limits of an activity have an owner if it lies in one. -/
theorem exists_of_owned {graph : Graph} (owned : owningContainer graph activity = .ok container) :
    ∃ node, graph.node? activity = some node ∧ node.kind.isActivity = true ∧
      node.parent = some container := by
  unfold owningContainer at owned
  split at owned
  next => cases owned
  next node found =>
    split at owned
    next isActivity =>
      split at owned
      next parent =>
        cases owned
        exact ⟨node, found, isActivity, parent⟩
      next => cases owned
    next => cases owned

/-- Working out limits again tracks what uninstalling and installing single limits track. -/
theorem tracks_refresh_of {related : Graph → Graph → Prop}
    (reads : ∀ graph other, related graph other →
      attributesOf graph activity = attributesOf other activity)
    (uninstalls : ∀ limit, Tracks related (uninstall activity limit))
    (installs : ∀ setting, Tracks related (install delegate container activity setting))
    (reached : Bool) (limits : List TimeLimit) :
    Tracks related (refresh delegate container activity reached limits) := by
  induction limits generalizing reached with
  | nil => cases reached <;> exact .pure _
  | cons limit rest inductionHypothesis =>
      have missing := (uninstalls limit).bind fun _ => inductionHypothesis false
      cases reached with
      | false => exact missing
      | true =>
          intro graph other holds
          simp only [TimerChange.answer, TimerChange.left, refresh_cons_apply,
            ← reads graph other holds]
          cases due? (attributesOf graph activity) limit with
          | none => exact missing graph other holds
          | some setting =>
              have installed := (installs setting).bind fun _ => inductionHypothesis true
              exact installed graph other holds

/-- What a change of a time limit does once the container and the attributes of the activity are
known. -/
def changeIn (delegate : String) (container activity : ElementId) (limit : TimeLimit)
    (value : Option String) (attributes : Attributes) : TimerChange Outcome :=
  match Text.entered? value with
  | none => do
      .apply (·.updateNode activity (·.eraseAttribute limit.attributeKey))
      uninstall activity limit
      refresh delegate container activity false limit.dependents
      return .removed
  | some raw =>
      match derive attributes limit raw with
      | .error obstacle => return .skipped obstacle
      | .ok expression => do
          .apply (·.updateNode activity (·.setAttribute limit.attributeKey raw))
          install delegate container activity ⟨limit, raw, expression⟩
          refresh delegate container activity true limit.dependents
          return .installed ⟨limit, raw, expression⟩

theorem change_of_owned {graph : Graph} (owned : owningContainer graph activity = .ok container)
    (limit : TimeLimit) (value : Option String) :
    limit.change delegate activity value graph =
      changeIn delegate container activity limit value (attributesOf graph activity) graph := by
  rw [change, TimerChange.bind_of_ok (TimerChange.get_eq graph), owned]
  unfold changeIn
  cases Text.entered? value with
  | none => rfl
  | some raw =>
      cases derived : derive (attributesOf graph activity) limit raw <;> simp only [derived]

/-- What is done in a known container tracks what its steps track, with the attributes of whichever
process it goes by. -/
theorem tracks_changeIn_of {related : Graph → Graph → Prop}
    (reads : ∀ graph other, related graph other →
      attributesOf graph activity = attributesOf other activity)
    (describes : ∀ change : Attributes → Attributes,
      Tracks related (.apply (·.updateNode activity fun node =>
        { node with attributes := change node.attributes })))
    (uninstalls : ∀ limit, Tracks related (uninstall activity limit))
    (installs : ∀ setting, Tracks related (install delegate container activity setting))
    (limit : TimeLimit) (value : Option String) (attributes : Attributes) :
    Tracks related (changeIn delegate container activity limit value attributes) := by
  have refreshed := tracks_refresh_of reads uninstalls installs
  unfold changeIn
  cases Text.entered? value with
  | none =>
      exact (describes (·.erase limit.attributeKey)).bind fun _ => (uninstalls limit).bind fun _ =>
        (refreshed false limit.dependents).bind fun _ => .pure _
  | some raw =>
      dsimp only
      cases derive attributes limit raw with
      | error obstacle => exact .pure _
      | ok expression =>
          exact (describes (·.insert limit.attributeKey raw)).bind fun _ =>
            (installs ⟨limit, raw, expression⟩).bind fun _ =>
              (refreshed true limit.dependents).bind fun _ => .pure _

/-- A change of a time limit tracks a relation if its steps track what the relation says once the
container of the activity is known. -/
theorem tracks_change_of {related : Graph → Graph → Prop}
    (carries : ElementId → Graph → Graph → Prop)
    (owning : ∀ graph other, related graph other →
      owningContainer graph activity = owningContainer other activity)
    (enter : ∀ graph other container, related graph other →
      owningContainer graph activity = .ok container → carries container graph other)
    (leave : ∀ container graph other, carries container graph other → related graph other)
    (reads : ∀ container graph other, carries container graph other →
      attributesOf graph activity = attributesOf other activity)
    (describes : ∀ container (change : Attributes → Attributes),
      Tracks (carries container) (.apply (·.updateNode activity fun node =>
        { node with attributes := change node.attributes })))
    (uninstalls : ∀ container limit, Tracks (carries container) (uninstall activity limit))
    (installs : ∀ container setting,
      Tracks (carries container) (install delegate container activity setting))
    (limit : TimeLimit) (value : Option String) :
    Tracks related (limit.change delegate activity value) := by
  intro graph other holds
  cases owned : owningContainer graph activity with
  | error error =>
      have otherOwned := owning graph other holds ▸ owned
      simp only [TimerChange.answer, TimerChange.left, change_of_unowned owned,
        change_of_unowned otherOwned]
      exact ⟨trivial, holds⟩
  | ok container =>
      have otherOwned := owning graph other holds ▸ owned
      have carried := enter graph other container holds owned
      obtain ⟨sameAnswer, left⟩ := tracks_changeIn_of (reads container) (describes container)
        (uninstalls container) (installs container) limit value (attributesOf graph activity)
        graph other carried
      simp only [TimerChange.answer, TimerChange.left, change_of_owned owned,
        change_of_owned otherOwned, ← reads container graph other carried] at *
      exact ⟨sameAnswer, leave container _ _ left⟩

/-- A change of a time limit keeps a property if its steps keep what the property says once the
container of the activity is known. -/
theorem keeps_change_of {property : Graph → Prop} {carries : ElementId → Graph → Prop}
    (enter : ∀ graph container, property graph → owningContainer graph activity = .ok container →
      carries container graph)
    (leave : ∀ container graph, carries container graph → property graph)
    (describes : ∀ container (change : Attributes → Attributes),
      Keeps (carries container) (.apply (·.updateNode activity fun node =>
        { node with attributes := change node.attributes })))
    (uninstalls : ∀ container limit, Keeps (carries container) (uninstall activity limit))
    (installs : ∀ container setting,
      Keeps (carries container) (install delegate container activity setting))
    (limit : TimeLimit) (value : Option String) :
    Keeps property (limit.change delegate activity value) := by
  refine keeps_iff_tracks.2 (tracks_change_of (fun container => Alone (carries container))
    ?_ ?_ ?_ ?_ ?_ ?_ ?_ limit value)
  · rintro graph _ ⟨rfl, _⟩
    rfl
  · rintro graph _ container ⟨rfl, holds⟩ owned
    exact ⟨rfl, enter graph container holds owned⟩
  · rintro container graph _ ⟨rfl, carried⟩
    exact ⟨rfl, leave container graph carried⟩
  · rintro container graph _ ⟨rfl, _⟩
    rfl
  · exact fun container change => keeps_iff_tracks.1 (describes container change)
  · exact fun container limit => keeps_iff_tracks.1 (uninstalls container limit)
  · exact fun container setting => keeps_iff_tracks.1 (installs container setting)

end Change

end TimeLimit

end BusinessProcess
