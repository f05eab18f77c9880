import BusinessProcess.Proofs.TimeLimit.Clash
import BusinessProcess.Proofs.TimeLimit.Fitting
import BusinessProcess.Proofs.TimeLimit.Independence

/-!
# Clearing a limit before it is set

A limit may be cleared before it is set to a value. The change that clears it erases its parts and
those of the limits that depend on it, and the change that sets it erases them as well before it
puts limits in place. Both ways therefore lead to the same limits in place in the same process; what
differs is the place of the value among the attributes of the activity.
-/

namespace BusinessProcess

namespace Store

variable {κ α : Type} [DecidableEq κ]

/-- A store lists an inserted value and what it lists under other keys. -/
theorem entries_insert_perm (store : Store κ α) (key : κ) (value : α) :
    (store.insert key value).entries.Perm
      ((key, value) :: store.entries.filter fun entry => entry.1 ≠ key) := by
  have placed : ∀ entries : List (κ × α), (entries.map Prod.fst).Nodup →
      (place key (fun _ => value) entries).Perm
        ((key, value) :: entries.filter fun entry => entry.1 ≠ key) := by
    intro entries distinct
    induction entries with
    | nil => exact List.Perm.refl _
    | cons head rest inductionHypothesis =>
        obtain ⟨fresh, restDistinct⟩ := List.nodup_cons.1 distinct
        by_cases same : head.1 = key
        · -- No other entry has the key.
          have others : rest.filter (fun entry => entry.1 ≠ key) = rest := by
            refine List.filter_eq_self.2 fun entry member => ?_
            rw [decide_eq_true_iff]
            rintro rfl
            exact fresh (same ▸ List.mem_map_of_mem member)
          rw [List.filter_cons_of_neg (by simp [same]), others, place, if_pos same, same]
        · rw [List.filter_cons_of_pos (by simpa using same), place, if_neg same]
          exact ((inductionHypothesis restDistinct).cons head).trans (List.Perm.swap _ _ _)
  exact placed store.entries store.distinct

/-- Whether a key was erased before a value is inserted shows in the order of the entries only. -/
theorem entries_insert_erase_perm (store : Store κ α) (key : κ) (value : α) :
    ((store.erase key).insert key value).entries.Perm (store.insert key value).entries := by
  refine (entries_insert_perm _ key value).trans (.trans ?_ (entries_insert_perm _ key value).symm)
  simp [erase, List.filter_filter]

end Store

namespace TimeLimit

open BusinessProcess.Graph

variable {container activity : ElementId} {graph : Graph}

/-! ## Exact steps -/

namespace Anchored

/-- Uninstalling a limit erases its parts, and the activity stays where and as it is. -/
theorem uninstall_eq (anchored : Anchored activity container graph) (limit : TimeLimit) :
    uninstall activity limit graph = .ok () (graph.without (isPartOf limit activity)) ∧
      Anchored activity container (graph.without (isPartOf limit activity)) ∧
      attributesOf (graph.without (isPartOf limit activity)) activity =
        attributesOf graph activity := by
  have done := anchored.secluded.uninstall_eq limit
  obtain ⟨left, uninstalled, leftAnchored, _⟩ := redraws_uninstall limit graph anchored
  rw [done] at uninstalled
  cases uninstalled
  exact ⟨done, leftAnchored, attributesOf_without (isPartOf_self limit activity)⟩

/-- Installing a limit puts it in place behind the others, and the activity stays where and as it
is. -/
theorem install_eq (anchored : Anchored activity container graph) (delegate : String)
    (setting : Setting) :
    install delegate container activity setting graph =
        .ok () (equip delegate container activity setting
          (graph.without (isPartOf setting.limit activity))) ∧
      Anchored activity container (equip delegate container activity setting
        (graph.without (isPartOf setting.limit activity))) ∧
      attributesOf (equip delegate container activity setting
        (graph.without (isPartOf setting.limit activity))) activity =
          attributesOf graph activity := by
  have redraws : Redraws activity container (setting.redraw delegate container activity)
      (install delegate container activity setting) := redraws_install setting
  obtain ⟨left, done, leftAnchored, _, drawn⟩ := redraws graph anchored
  obtain ⟨cleared, first, second, uninstalled, event, service, flow⟩ :=
    exists_of_install_eq_ok done
  rw [(anchored.uninstall_eq setting.limit).1] at uninstalled
  cases uninstalled
  obtain rfl := eq_equip event service flow
  have unmoved := drawn activity
  rw [Setting.redraw_of_apart fun part same =>
    part.id_ne_self setting.limit activity same.symm] at unmoved
  exact ⟨done, leftAnchored, attributesOf_congr Node.outline (fun _ => rfl)
    (map_outline_node? unmoved)⟩

/-- Working out limits takes the steps that follow from the values kept. -/
theorem refresh_eq (anchored : Anchored activity container graph) (delegate : String)
    (reached : Bool) (limits : List TimeLimit) :
    refresh delegate container activity reached limits graph =
        .ok () (runSteps delegate container activity
          (refreshSteps (attributesOf graph activity) reached limits) graph) ∧
      attributesOf (runSteps delegate container activity
          (refreshSteps (attributesOf graph activity) reached limits) graph) activity =
        attributesOf graph activity := by
  induction limits generalizing graph reached with
  | nil => cases reached <;> exact ⟨rfl, rfl⟩
  | cons limit rest inductionHypothesis =>
      obtain ⟨uninstalled, erased, same⟩ := anchored.uninstall_eq limit
      obtain ⟨missing, missingSame⟩ := inductionHypothesis erased false
      rw [same] at missing missingSame
      have skipped : (do
          uninstall activity limit
          refresh delegate container activity false rest : TimerChange Unit) graph = _ :=
        (TimerChange.bind_of_ok uninstalled).trans missing
      cases reached with
      | false => exact ⟨skipped, missingSame⟩
      | true =>
          rw [refresh_cons_apply, refreshSteps]
          cases due : due? (attributesOf graph activity) limit with
          | none => exact ⟨skipped, missingSame⟩
          | some setting =>
              obtain ⟨installed, equipped, sameInstalled⟩ :=
                anchored.install_eq delegate setting
              obtain ⟨refreshed, refreshedSame⟩ := inductionHypothesis equipped true
              rw [sameInstalled] at refreshed refreshedSame
              exact ⟨(TimerChange.bind_of_ok installed).trans refreshed, refreshedSame⟩

end Anchored

/-! ## Exact changes -/

namespace Secluded

variable {limit : TimeLimit} {value : Option String}

/-- However the activity is described, it stays anchored in its container. -/
theorem anchored_describe (secluded : Secluded activity graph)
    (owned : owningContainer graph activity = .ok container) (change : Attributes → Attributes) :
    Anchored activity container (graph.describe activity change) :=
  anchored (secluded.of_sameShape (sameShape_updateNode graph activity fun _ => rfl))
    ((owningContainer_describe change).trans owned)

/-- Clearing a limit forgets its value and erases its parts and those of the limits that depend on
it. -/
theorem change_of_empty (secluded : Secluded activity graph)
    (owned : owningContainer graph activity = .ok container) (delegate : String)
    (entered : Text.entered? value = none) :
    limit.change delegate activity value graph =
      .ok .removed ((graph.describe activity (·.erase limit.attributeKey)).without
        (isPartOfSome (touched limit) activity)) := by
  have described := secluded.anchored_describe owned (·.erase limit.attributeKey)
  obtain ⟨uninstalled, erased, _⟩ := described.uninstall_eq limit
  obtain ⟨refreshed, _⟩ := erased.refresh_eq delegate false limit.dependents
  rw [runSteps_refreshSteps_false, without_without] at refreshed
  exact TimeLimit.change_of_empty owned entered uninstalled refreshed

/-- Setting a limit keeps its value and puts the limit in place and then those that are due of the
limits that depend on it; before that, the parts of all of them are erased. -/
theorem change_of_derived (secluded : Secluded activity graph)
    (owned : owningContainer graph activity = .ok container) (delegate : String) {raw : String}
    {expression : TimerExpression} (entered : Text.entered? value = some raw)
    (derived : derive (attributesOf graph activity) limit raw = .ok expression) :
    let attributes := (attributesOf graph activity).insert limit.attributeKey raw
    let left := equipAll delegate container activity
      (⟨limit, raw, expression⟩ :: dueAll attributes limit.dependents)
      ((graph.describe activity (·.insert limit.attributeKey raw)).without
        (isPartOfSome (touched limit) activity))
    limit.change delegate activity value graph = .ok (.installed ⟨limit, raw, expression⟩) left ∧
      attributesOf left activity = attributes := by
  intro attributes left
  obtain ⟨fresh, distinct⟩ := List.nodup_cons.1 (nodup_touched limit)
  have described := secluded.anchored_describe owned (·.insert limit.attributeKey raw)
  obtain ⟨installed, equipped, same⟩ := described.install_eq delegate ⟨limit, raw, expression⟩
  obtain ⟨refreshed, refreshedSame⟩ := equipped.refresh_eq delegate true limit.dependents
  rw [same, attributesOf_describe owned] at refreshed refreshedSame
  have room : Room activity [⟨limit, raw, expression⟩]
      ((graph.describe activity (·.insert limit.attributeKey raw)).without
        (isPartOf limit activity)) :=
    .single (free_of_erased _ limit)
  have others : ([⟨limit, raw, expression⟩].map Setting.limit).Disjoint limit.dependents :=
    List.singleton_disjoint.2 fresh
  have steps : runSteps delegate container activity
      (refreshSteps attributes true limit.dependents) _ = _ :=
    runSteps_refreshSteps room distinct others
  rw [without_without] at steps
  rw [show equip delegate container activity ⟨limit, raw, expression⟩ _ =
    equipAll delegate container activity [⟨limit, raw, expression⟩] _ from rfl, steps]
    at refreshed refreshedSame
  exact ⟨TimeLimit.change_of_derived owned entered derived installed refreshed, refreshedSame⟩

/-- Clearing a limit leaves its activity where it lay, without a value for the limit, and the parts
of its limits secluded. -/
theorem cleared (secluded : Secluded activity graph)
    (owned : owningContainer graph activity = .ok container) (delegate : String)
    (limit : TimeLimit) (blank : Text.entered? value = none) :
    let left := (graph.describe activity (·.erase limit.attributeKey)).without
      (isPartOfSome (touched limit) activity)
    Secluded activity left ∧ owningContainer left activity = .ok container ∧
      attributesOf left activity = (attributesOf graph activity).erase limit.attributeKey := by
  intro left
  have kept := keeps_change delegate activity limit value graph secluded
  rw [TimerChange.left, secluded.change_of_empty owned delegate blank] at kept
  refine ⟨kept, ?_, ?_⟩
  · rw [owningContainer_without (isPartOfSome_self _ activity), owningContainer_describe, owned]
  · rw [attributesOf_without (isPartOfSome_self _ activity), attributesOf_describe owned]

/-- Whether a limit is cleared before it is set shows in the order of the attributes of the activity
only. -/
theorem set_of_cleared (secluded : Secluded activity graph) (delegate : String)
    {setting : Setting} {left : Graph}
    (done : limit.change delegate activity value graph = .ok (.installed setting) left)
    {nothing : Option String} (blank : Text.entered? nothing = none) : ∃ cleared attributes,
      limit.change delegate activity nothing graph = .ok .removed cleared ∧
      limit.change delegate activity value cleared =
        .ok (.installed setting) (left.describe activity fun _ => attributes) ∧
      attributes.entries.Perm (attributesOf left activity).entries := by
  have course := change_eq_ok_iff.1 done
  cases course with
  | @set container raw expression _ _ owned entered derived _ _ =>
    obtain ⟨straight, carried⟩ := secluded.change_of_derived owned delegate entered derived
    rw [straight] at done
    cases done
    obtain ⟨clearedSecluded, clearedOwned, clearedAttributes⟩ :=
      secluded.cleared owned delegate limit blank
    -- The limit is not computed from itself, so it is worked out without its former value.
    have derivedLater : derive ((attributesOf graph activity).erase limit.attributeKey) limit raw =
        .ok expression := by
      rw [← derived]
      exact derive_of_ne fun other differs => by rw [stored?_erase, if_neg differs]
    rw [← clearedAttributes] at derivedLater
    obtain ⟨detour, _⟩ :=
      clearedSecluded.change_of_derived clearedOwned delegate entered derivedLater
    rw [clearedAttributes] at detour
    have filled := Text.isBlankText_of_entered? entered
    have sameDue : dueAll (((attributesOf graph activity).erase limit.attributeKey).insert
        limit.attributeKey raw) limit.dependents =
          dueAll ((attributesOf graph activity).insert limit.attributeKey raw)
            limit.dependents := by
      refine dueAll_congr (fun other => ?_) limit.dependents
      rw [stored?_insert filled, stored?_insert filled, stored?_erase]
      split <;> rfl
    refine ⟨_, ((attributesOf graph activity).erase limit.attributeKey).insert
      limit.attributeKey raw, secluded.change_of_empty owned delegate blank, ?_, ?_⟩
    · rw [detour, sameDue, ← equipAll_describe, ← without_describe, ← without_describe,
        without_again, describe_describe, describe_describe,
        describe_eq secluded.wellFormed.distinct]
    · rw [carried]
      exact Store.entries_insert_erase_perm _ _ _

end Secluded

/-! ## The run as a whole -/

/-- On a process that was reached, in which no element has the id of a part of a time limit, time
limits may be changed in any way. Then a limit that can be set on an activity can also be cleared
and set to the same value. What is set is the same, and so is the process, with all limits that
depend on the one set, except for the order of the attributes of the activity. -/
theorem Retimed.clearing_first {policy : Policy} {root : ElementId} {ledger : Ledger}
    (reached : Reached policy root ledger) (unlimited : Unlimited ledger.graph) {graph : Graph}
    (retimed : Retimed ledger.graph graph) {activity : Node}
    (member : activity ∈ ledger.graph.nodes) (isActivity : activity.kind.isActivity = true)
    (delegate : String) (limit : TimeLimit) {value nothing : Option String} {setting : Setting}
    (answered : (limit.change delegate activity.id value).answer graph = .ok (.installed setting))
    (blank : Text.entered? nothing = none) :
    let set := limit.change delegate activity.id value
    let clear := limit.change delegate activity.id nothing
    clear.answer graph = .ok .removed ∧
      set.answer (clear.left graph) = .ok (.installed setting) ∧
      ∃ attributes, set.left (clear.left graph) =
          (set.left graph).describe activity.id (fun _ => attributes) ∧
        attributes.entries.Perm (attributesOf (set.left graph) activity.id).entries := by
  intro set clear
  have secluded : Secluded activity.id graph :=
    retimed.secluded (.initially reached.sound.wellFormed (unlimited activity member isActivity))
  obtain ⟨cleared, attributes, isCleared, isSet, permuted⟩ :=
    secluded.set_of_cleared delegate (TimerChange.eq_ok_of_answer answered) blank
  simp only [set, clear, TimerChange.answer, TimerChange.left, isCleared, isSet, true_and]
  exact ⟨attributes, rfl, permuted⟩

/-- A longer deadline is entered for a task that has a first warning. If the deadline was cleared
before, its value comes last among the attributes. -/
theorem clearing_first_of_warned :
    let set := deadline.change "delegate" ⟨"T"⟩ (some "3H")
    let clear := deadline.change "delegate" ⟨"T"⟩ (some " ")
    ∃ graph, Retimed nestedTask.graph graph ∧
      clear.answer graph = .ok .removed ∧
      set.answer (clear.left graph) = set.answer graph ∧
      (∃ attributes, set.left (clear.left graph) =
          (set.left graph).describe ⟨"T"⟩ (fun _ => attributes) ∧
        attributes.entries.Perm (attributesOf (set.left graph) ⟨"T"⟩).entries) ∧
      (clear.left graph).ids = nestedTask.graph.ids ∧
      (attributesOf (set.left graph) ⟨"T"⟩).entries =
        [("timeLimit:timeDuration", "3H"), ("timeLimit:firstWarnDuration", "1H")] ∧
      (attributesOf (set.left (clear.left graph)) ⟨"T"⟩).entries =
        [("timeLimit:firstWarnDuration", "1H"), ("timeLimit:timeDuration", "3H")] := by
  intro set clear
  let task : Node := { Node.alone ⟨"T"⟩ (.task .user) with parent := some ⟨"S"⟩ }
  have member : task ∈ nestedTask.graph.nodes := by decide
  let graph := (firstWarning.change "delegate" ⟨"T"⟩ (some "1H")).left
    ((deadline.change "delegate" ⟨"T"⟩ (some "2H")).left nestedTask.graph)
  have retimed : Retimed nestedTask.graph graph :=
    (Retimed.start.change "delegate" ⟨"T"⟩ .deadline (some "2H")).change "delegate" ⟨"T"⟩
      .firstWarning (some "1H")
  have answered : set.answer graph = .ok (.installed ⟨.deadline, "3H", ⟨.duration, "PT3H"⟩⟩) := by
    decide +kernel
  obtain ⟨cleared, again, same⟩ := Retimed.clearing_first (reached_nestedTask ⟨true, true⟩)
    unlimited_nestedTask retimed member rfl "delegate" .deadline answered
    (show Text.entered? (some " ") = none by decide +kernel)
  exact ⟨graph, retimed, cleared, again.trans answered.symm, same, by decide +kernel,
    by decide +kernel, by decide +kernel⟩

end TimeLimit

end BusinessProcess
