import BusinessProcess.Proofs.History.Removal
import BusinessProcess.Proofs.TimeLimit.Standing

/-!
# Changes of time limits made twice

Each installation takes a limit away and puts it on top again, and the limits that depend on it
follow in their order. Once a change was made, making it again goes through the same steps: what was
not in place is not there to be taken away, and what was in place is moved on top of the rest, one
limit after the other, until all are in their order again. So the second time changes nothing,
whatever other elements the first time removed or met.
-/

namespace BusinessProcess

namespace Store

variable {κ α : Type} [DecidableEq κ]

/-- A value that is inserted again stays where it is. -/
theorem insert_insert (store : Store κ α) (key : κ) (value : α) :
    (store.insert key value).insert key value = store.insert key value := by
  have placed : ∀ entries : List (κ × α), place key (fun _ => value)
      (place key (fun _ => value) entries) = place key (fun _ => value) entries := by
    intro entries
    induction entries with
    | nil => simp [place]
    | cons head rest inductionHypothesis =>
        by_cases same : head.1 = key
        · simp [place, same]
        · simp [place, same, inductionHypothesis]
  exact ext (placed store.entries)

theorem erase_erase (store : Store κ α) (key : κ) :
    (store.erase key).erase key = store.erase key :=
  ext (by simp [erase, List.filter_filter])

end Store

namespace TimeLimit

open BusinessProcess.Graph

/-! ## Changes that lost their activity -/

/-- The activity is not in the process. -/
structure Gone (activity : ElementId) (graph : Graph) : Prop where
  wellFormed : graph.WellFormed
  absent : graph.node? activity = none

namespace Gone

variable {delegate : String} {container activity : ElementId} {graph left : Graph}

theorem without (gone : Gone activity graph) {doomed : ElementId → Bool}
    (severable : graph.Severable doomed) : Gone activity (graph.without doomed) where
  wellFormed := gone.wellFormed.without severable
  absent := by rw [node?_without, gone.absent, Option.map_none, ite_self]

theorem uninstall (gone : Gone activity graph) {limit : TimeLimit}
    (done : TimeLimit.uninstall activity limit graph = .ok () left) : Gone activity left := by
  obtain ⟨first, second, third, flow, service, event, rfl, _⟩ :=
    exists_cascades_of_uninstall gone.wellFormed done
  exact ((gone.without flow.toSeverable).without service.toSeverable).without event.toSeverable

/-- Parts of its limits do not bring an activity back. -/
theorem add (gone : Gone activity graph) {first second : Graph} {setting : Setting}
    (event : graph.addNode container (boundaryEvent activity setting) = .ok first)
    (service : first.addNode container (serviceTask activity setting.limit delegate) = .ok second)
    (flow : second.addFlow container (serviceFlow activity setting.limit) = .ok left) :
    Gone activity left := by
  have room : Room activity [setting] graph := .single (free_of_added event service flow)
  refine ⟨((gone.wellFormed.addNode rfl event).addNode rfl service).addFlow flow, ?_⟩
  rw [eq_equip event service flow]
  exact node?_equipAll_eq_none room gone.absent

theorem install (gone : Gone activity graph) {setting : Setting}
    (done : TimeLimit.install delegate container activity setting graph = .ok () left) :
    Gone activity left := by
  obtain ⟨cleared, first, second, uninstalled, event, service, flow⟩ :=
    exists_of_install_eq_ok done
  exact (gone.uninstall uninstalled).add event service flow

theorem refresh (gone : Gone activity graph) {reached : Bool} {limits : List TimeLimit}
    (done : TimeLimit.refresh delegate container activity reached limits graph = .ok () left) :
    Gone activity left := by
  induction limits generalizing graph reached with
  | nil => cases reached <;> cases done <;> exact gone
  | cons limit rest inductionHypothesis =>
      have missing : (do
          TimeLimit.uninstall activity limit
          TimeLimit.refresh delegate container activity false rest : TimerChange Unit) graph =
            .ok () left → Gone activity left := by
        intro done
        obtain ⟨_, _, uninstalled, refreshed⟩ := TimerChange.exists_of_bind_eq_ok done
        exact inductionHypothesis (gone.uninstall uninstalled) refreshed
      cases reached with
      | false => exact missing done
      | true =>
          rw [refresh_cons_apply] at done
          cases due : due? (attributesOf graph activity) limit with
          | none =>
              rw [due] at done
              exact missing done
          | some setting =>
              rw [due] at done
              obtain ⟨_, _, installed, refreshed⟩ := TimerChange.exists_of_bind_eq_ok done
              exact inductionHypothesis (gone.install installed) refreshed

end Gone

/-! ## The first time -/

/-- On the way of a change the activity is gone, or the limits worked out so far stand on a process
that underlies them. -/
inductive Progress (delegate : String) (container activity : ElementId) (attributes : Attributes)
    (worked : List TimeLimit) (settings : List Setting) : Graph → Prop where
  | gone {graph : Graph} (gone : Gone activity graph) :
      Progress delegate container activity attributes worked settings graph
  | stands {base : Graph}
      (underlies : Underlies container activity attributes worked settings base) :
      Progress delegate container activity attributes worked settings
        (equipAll delegate container activity settings base)

namespace Progress

variable {delegate : String} {container activity : ElementId} {attributes : Attributes}
  {worked : List TimeLimit} {settings : List Setting} {graph left : Graph} {limit : TimeLimit}

theorem wellFormed
    (progress : Progress delegate container activity attributes worked settings graph) :
    graph.WellFormed := by
  cases progress with
  | gone gone => exact gone.wellFormed
  | stands underlies =>
      exact wellFormed_equipAll underlies.room underlies.wellFormed underlies.owned

/-- A removal by the id of a part of a limit that is not in place takes the activity along or leaves
the limits in place. -/
theorem cascade (progress : Progress delegate container activity attributes worked settings graph)
    (other : limit ∉ settings.map Setting.limit) {part : Part} {doomed : ElementId → Bool}
    (cascade : graph.Cascade (part.id limit activity) doomed) :
    Progress delegate container activity attributes worked settings (graph.without doomed) := by
  cases isGone : doomed activity with
  | true =>
      refine .gone ⟨progress.wellFormed.without cascade.toSeverable, ?_⟩
      rw [node?_without, if_pos isGone]
  | false =>
      cases progress with
      | gone gone => exact .gone (gone.without cascade.toSeverable)
      | stands underlies =>
          obtain ⟨same, later⟩ := underlies.cascade other cascade isGone
          rw [same]
          exact .stands later

/-- A limit that was found not to be in place counts as worked out. -/
theorem work (progress : Progress delegate container activity attributes worked settings graph)
    (uninstalled : Uninstalled limit activity graph) :
    Progress delegate container activity attributes (limit :: worked) settings graph := by
  cases progress with
  | gone gone => exact .gone gone
  | stands underlies =>
      refine .stands { underlies with uninstalled := fun later isWorked missing => ?_ }
      rcases List.mem_cons.1 isWorked with rfl | wasWorked
      · exact uninstalled.of_equipAll
      · exact underlies.uninstalled later wasWorked missing

/-- Uninstalling a limit that is not in place works it out. -/
theorem uninstall (progress : Progress delegate container activity attributes worked settings graph)
    (other : limit ∉ settings.map Setting.limit)
    (done : TimeLimit.uninstall activity limit graph = .ok () left) :
    Progress delegate container activity attributes (limit :: worked) settings left := by
  obtain ⟨first, second, third, flow, service, event, rfl, uninstalled⟩ :=
    exists_cascades_of_uninstall progress.wellFormed done
  exact (((progress.cascade other flow).cascade other service).cascade other event).work uninstalled

/-- Installing a limit that is not in place puts it on top. -/
theorem install (progress : Progress delegate container activity attributes worked settings graph)
    {setting : Setting} (other : setting.limit ∉ settings.map Setting.limit)
    (done : TimeLimit.install delegate container activity setting graph = .ok () left) :
    Progress delegate container activity attributes (setting.limit :: worked)
      (settings ++ [setting]) left := by
  obtain ⟨cleared, first, second, uninstalled, event, service, flow⟩ :=
    exists_of_install_eq_ok done
  have free := free_of_added event service flow
  have later := progress.uninstall other uninstalled
  cases later with
  | gone gone => exact .gone (gone.add event service flow)
  | @stands base underlies =>
      have top : left = equipAll delegate container activity (settings ++ [setting]) base :=
        (eq_equip event service flow).trans equip_equipAll
      rw [top]
      refine .stands { underlies with room := underlies.room.concat other ?_, uninstalled := ?_ }
      · exact fun part used => free part (ids_subset_equipAll used)
      · intro limit isWorked missing
        rw [List.map_append, List.mem_append, not_or] at missing
        exact underlies.uninstalled limit isWorked missing.1

/-- Limits that are uninstalled one after the other are worked out. -/
theorem refresh_false {limits : List TimeLimit}
    (progress : Progress delegate container activity attributes worked settings graph)
    (others : (settings.map Setting.limit).Disjoint limits)
    (done : refresh delegate container activity false limits graph = .ok () left) :
    Progress delegate container activity attributes (limits.reverse ++ worked) settings left := by
  induction limits generalizing graph worked with
  | nil =>
      cases done
      exact progress
  | cons limit rest inductionHypothesis =>
      obtain ⟨other, othersRest⟩ := List.disjoint_cons_right.1 others
      obtain ⟨_, _, uninstalled, refreshed⟩ := TimerChange.exists_of_bind_eq_ok done
      rw [List.reverse_cons, List.append_assoc]
      exact inductionHypothesis (progress.uninstall other uninstalled) othersRest refreshed

/-- Limits that are worked out one after the other come on top as far as they are due. -/
theorem refresh_true {limits : List TimeLimit}
    (progress : Progress delegate container activity attributes worked settings graph)
    (distinct : limits.Nodup) (others : (settings.map Setting.limit).Disjoint limits)
    (done : refresh delegate container activity true limits graph = .ok () left) :
    Progress delegate container activity attributes (limits.reverse ++ worked)
      (settings ++ dueAll attributes limits) left := by
  induction limits generalizing graph worked settings with
  | nil =>
      cases done
      rw [dueAll, List.append_nil]
      exact progress
  | cons limit rest inductionHypothesis =>
      cases progress with
      | gone gone => exact .gone (gone.refresh done)
      | @stands base underlies =>
          -- What is due is read anew at each limit, and the activity still carries the same.
          rw [refresh_cons_apply, attributesOf_equipAll underlies.room, underlies.carries] at done
          cases due : due? attributes limit with
          | none =>
              rw [due] at done
              rw [dueAll_of_none due, List.append_nil]
              exact (stands underlies).refresh_false others done
          | some setting =>
              obtain rfl := limit_of_due? due
              obtain ⟨fresh, restDistinct⟩ := List.nodup_cons.1 distinct
              have other := (List.disjoint_cons_right.1 others).1
              rw [due] at done
              obtain ⟨_, _, installed, refreshed⟩ := TimerChange.exists_of_bind_eq_ok done
              rw [dueAll_of_some due, List.append_cons, List.reverse_cons, List.append_assoc]
              exact inductionHypothesis ((stands underlies).install other installed) restDistinct
                (disjoint_concat fresh others) refreshed

end Progress

/-! ## The second time -/

section Again

variable {delegate : String} {container activity : ElementId} {attributes : Attributes}
  {worked : List TimeLimit} {settings : List Setting} {base : Graph} {limits : List TimeLimit}

/-- Uninstalling limits again that are not in place changes nothing. -/
theorem refresh_of_uninstalled {graph : Graph}
    (uninstalled : ∀ limit ∈ limits, Uninstalled limit activity graph) :
    refresh delegate container activity false limits graph = .ok () graph := by
  induction limits with
  | nil => rfl
  | cons limit rest inductionHypothesis =>
      obtain ⟨first, others⟩ := List.forall_mem_cons.1 uninstalled
      exact (TimerChange.bind_of_ok first.uninstall_eq).trans (inductionHypothesis others)

/-- Installing the lowest limit in place again moves it on top. -/
theorem Underlies.install_again {setting : Setting}
    (underlies : Underlies container activity attributes worked (setting :: settings) base)
    (delegate : String) :
    install delegate container activity setting
        (equipAll delegate container activity (setting :: settings) base) =
      .ok () (equipAll delegate container activity (settings ++ [setting]) base) := by
  have room := underlies.room
  have lower : Room activity settings base :=
    room.mono (List.sublist_cons_self _ _).subperm (List.Subset.refl _)
  have isSealed : Sealed setting.limit activity
      (equipAll delegate container activity (setting :: settings) base) :=
    isSealed_equipAll room underlies.wellFormed underlies.owned List.mem_cons_self
  have rest : (equipAll delegate container activity (setting :: settings) base).without
      (isPartOf setting.limit activity) = equipAll delegate container activity settings base := by
    rw [without_isPartOf_equipAll room,
      room.without_isPartOf underlies.wellFormed.tidy List.mem_cons_self]
  have free : ∀ part : Part, part.id setting.limit activity ∉
      (equipAll delegate container activity settings base).ids :=
    rest ▸ free_of_erased _ setting.limit
  obtain ⟨_, found, _, parent⟩ :=
    exists_of_owned ((owningContainer_equipAll lower).trans underlies.owned)
  obtain ⟨_, _, event, service, flow, _⟩ := exists_equipped delegate
    (wellFormed_equipAll lower underlies.wellFormed underlies.owned) found parent setting free
  have uninstalled := isSealed.uninstall_eq
  rw [rest] at uninstalled
  rw [install_eq_ok uninstalled event service flow, equip_equipAll]

/-- Working out limits again moves those that are in place on top, one after the other, and leaves
their order. -/
theorem Underlies.refresh_again
    (underlies : Underlies container activity attributes worked
      (dueAll attributes limits ++ settings) base) (delegate : String)
    (within : limits ⊆ worked) (distinct : limits.Nodup)
    (others : (settings.map Setting.limit).Disjoint limits) :
    refresh delegate container activity true limits
        (equipAll delegate container activity (dueAll attributes limits ++ settings) base) =
      .ok () (equipAll delegate container activity (settings ++ dueAll attributes limits)
        base) := by
  induction limits generalizing settings with
  | nil =>
      rw [dueAll, List.append_nil]
      rfl
  | cons limit rest inductionHypothesis =>
      rw [refresh_cons_apply, attributesOf_equipAll underlies.room, underlies.carries]
      cases due : due? attributes limit with
      | none =>
          -- All limits that are due were moved, so none of those left to work out is in place.
          rw [dueAll_of_none due] at underlies ⊢
          rw [List.nil_append] at underlies
          rw [List.nil_append, List.append_nil]
          have uninstalled : ∀ later ∈ limit :: rest, Uninstalled later activity
              (equipAll delegate container activity settings base) := by
            intro later member
            have missing : later ∉ settings.map Setting.limit :=
              fun isOther => others isOther member
            exact (underlies.uninstalled later (within member) missing).beside missing
          exact refresh_of_uninstalled uninstalled
      | some setting =>
          obtain rfl := limit_of_due? due
          obtain ⟨fresh, restDistinct⟩ := List.nodup_cons.1 distinct
          -- The limits that were not moved yet are the lowest, and this is the first of them.
          rw [dueAll_of_some due, List.cons_append] at underlies ⊢
          have moved := underlies.perm (List.perm_append_singleton _ _)
          have installed := underlies.install_again delegate
          rw [List.append_assoc] at moved installed
          have refreshed := inductionHypothesis moved (List.cons_subset.1 within).2 restDistinct
            (disjoint_concat fresh others)
          rw [List.append_cons]
          exact (TimerChange.bind_of_ok installed).trans refreshed

end Again

/-! ## Whole changes -/

section Change

variable {delegate : String} {activity : ElementId} {limit : TimeLimit} {value : Option String}
  {graph left : Graph} {outcome : Outcome}

/-- A limit that was cleared is cleared again, and nothing is left to remove. -/
private theorem clear_again {container : ElementId} {attributes : Attributes}
    {worked : List TimeLimit}
    (underlies : Underlies container activity (attributes.erase limit.attributeKey) worked [] left)
    (within : touched limit ⊆ worked) (entered : Text.entered? value = none) :
    limit.change delegate activity value left = .ok .removed left := by
  have uninstalled : ∀ other ∈ touched limit, Uninstalled other activity left :=
    fun other isTouched => underlies.uninstalled other (within isTouched) List.not_mem_nil
  obtain ⟨first, dependents⟩ := List.forall_mem_cons.1 uninstalled
  have same : left.describe activity (·.erase limit.attributeKey) = left := by
    refine describe_eq_self underlies.wellFormed.distinct ?_
    rw [underlies.carries, Store.erase_erase]
  refine change_eq_ok_iff.2 (.cleared underlies.owned entered ?_
    (refresh_of_uninstalled dependents))
  rw [same]
  exact first.uninstall_eq

/-- A limit that was set is set again, and with the limits that depend on it is put where it was. -/
private theorem set_again {container : ElementId} {attributes : Attributes}
    {worked : List TimeLimit} {base : Graph} {raw : String} {expression : TimerExpression}
    (underlies : Underlies container activity (attributes.insert limit.attributeKey raw) worked
      (⟨limit, raw, expression⟩ ::
        dueAll (attributes.insert limit.attributeKey raw) limit.dependents) base)
    (within : touched limit ⊆ worked) (entered : Text.entered? value = some raw)
    (derived : derive attributes limit raw = .ok expression)
    (same : left = equipAll delegate container activity (⟨limit, raw, expression⟩ ::
      dueAll (attributes.insert limit.attributeKey raw) limit.dependents) base) :
    limit.change delegate activity value left =
      .ok (.installed ⟨limit, raw, expression⟩) left := by
  obtain ⟨fresh, distinct⟩ := List.nodup_cons.1 (nodup_touched limit)
  have room := underlies.room
  have wellFormed : left.WellFormed :=
    same ▸ wellFormed_equipAll room underlies.wellFormed underlies.owned
  have owned : owningContainer left activity = .ok container := by
    rw [same, owningContainer_equipAll room, underlies.owned]
  have carries : attributesOf left activity = attributes.insert limit.attributeKey raw := by
    rw [same, attributesOf_equipAll room, underlies.carries]
  have described : left.describe activity (·.insert limit.attributeKey raw) = left :=
    describe_eq_self wellFormed.distinct (by rw [carries, Store.insert_insert])
  have derivedAgain : derive (attributesOf left activity) limit raw = .ok expression := by
    rw [carries, ← derived]
    refine derive_of_ne fun other differs => ?_
    rw [stored?_insert (Text.isBlankText_of_entered? entered), if_neg differs]
  have installed := underlies.install_again delegate
  have moved := underlies.perm (List.perm_append_singleton _ _)
  have refreshed := moved.refresh_again delegate (List.cons_subset.1 within).2 distinct
    (List.singleton_disjoint.2 fresh)
  rw [← same] at installed
  rw [List.singleton_append, ← same] at refreshed
  refine change_eq_ok_iff.2 (.set owned entered derivedAgain ?_ refreshed)
  rw [described]
  exact installed

/-- On a well-formed process, a change of a time limit that leaves its activity there answers the
same the second time and changes nothing then. -/
theorem change_again (wellFormed : graph.WellFormed)
    (done : limit.change delegate activity value graph = .ok outcome left)
    (stays : (left.node? activity).isSome = true) :
    limit.change delegate activity value left = .ok outcome left := by
  obtain ⟨fresh, distinct⟩ := List.nodup_cons.1 (nodup_touched limit)
  have present : ¬ Gone activity left := by
    rintro ⟨_, absent⟩
    rw [absent] at stays
    cases stays
  have within : touched limit ⊆ limit.dependents.reverse ++ [limit] :=
    List.cons_subset.2 ⟨by simp, fun other isDependent => by simp [isDependent]⟩
  cases change_eq_ok_iff.1 done with
  | skipped => exact done
  | @cleared container _ _ owned entered uninstalled refreshed =>
      have started : Progress delegate container activity
          ((attributesOf graph activity).erase limit.attributeKey) [] [] _ :=
        .stands (.initially wellFormed owned (·.erase limit.attributeKey))
      have finished := (started.uninstall List.not_mem_nil uninstalled).refresh_false
        (List.disjoint_nil_left _) refreshed
      cases finished with
      | gone gone => exact absurd gone present
      | stands underlies => exact clear_again underlies within entered
  | @set container raw expression _ _ owned entered derived installed refreshed =>
      have started : Progress delegate container activity
          ((attributesOf graph activity).insert limit.attributeKey raw) [] [] _ :=
        .stands (.initially wellFormed owned (·.insert limit.attributeKey raw))
      have finished := (started.install List.not_mem_nil installed).refresh_true distinct
        (List.singleton_disjoint.2 fresh) refreshed
      cases finished with
      | gone gone => exact absurd gone present
      | stands underlies => exact set_again underlies within entered derived rfl

end Change

end TimeLimit

open TimeLimit

/-- In every reached process, a change of a time limit that is answered can be made again. Provided
that the activity is still there, the answer is the same and the process stays exactly as it is,
with all orders. -/
theorem Reached.change_twice {policy : Policy} {root : ElementId} {ledger : Ledger}
    (reached : Reached policy root ledger) (delegate : String) (activity : ElementId)
    (limit : TimeLimit) (value : Option String) {outcome : Outcome}
    (answered : (limit.change delegate activity value).answer ledger.graph = .ok outcome)
    (stays : (((limit.change delegate activity value).left ledger.graph).node?
      activity).isSome = true) :
    let change := limit.change delegate activity value
    change (change.left ledger.graph) = .ok outcome (change.left ledger.graph) :=
  change_again reached.sound.wellFormed (TimerChange.eq_ok_of_answer answered) stays

/-- A task has a value for its first warning that was not entered, a sub-process bears the id of the
event of its deadline, and a flow that of the event of its repeated warnings. Setting the deadline
removes the sub-process with what lies in it, installs two limits and leaves the flow; setting it
again changes nothing. -/
theorem change_twice_of_borne_ids : ∃ ledger, Reached ⟨false, false⟩ ⟨"P"⟩ ledger ∧
    let change := TimeLimit.deadline.change "delegate" ⟨"T"⟩ (some " 2H")
    let outcome := Outcome.installed ⟨.deadline, "2H", ⟨.duration, "PT2H"⟩⟩
    ledger.graph.ids = [⟨"P"⟩, ⟨"T"⟩, ⟨"A"⟩, ⟨"T_overtime"⟩, ⟨"B"⟩, ⟨"T_timer_loop"⟩] ∧
    change.answer ledger.graph = .ok outcome ∧
    (change.left ledger.graph).ids = [⟨"P"⟩, ⟨"T"⟩, ⟨"A"⟩, ⟨"T_overtime"⟩,
      ⟨"T_overtime_service"⟩, ⟨"T_timer"⟩, ⟨"T_timer_service"⟩, ⟨"T_timer_loop"⟩,
      ⟨"T_overtime_service_flow"⟩, ⟨"T_timer_service_flow"⟩] ∧
    change (change.left ledger.graph) = .ok outcome (change.left ledger.graph) := by
  let built : Ledger := ((((((Ledger.new ⟨"P"⟩).record
    (.addNode ⟨"P"⟩ (.alone ⟨"T"⟩ (.task .user)))).record
    (.addNode ⟨"P"⟩ (.alone ⟨"A"⟩ (.task .user)))).record
    (.addNode ⟨"P"⟩ (.alone ⟨"T_overtime"⟩ (.subProcess false)))).record
    (.addNode ⟨"T_overtime"⟩ (.alone ⟨"B"⟩ (.task .user)))).record
    (.addFlow ⟨"P"⟩ (.between ⟨"T_timer_loop"⟩ ⟨"T"⟩ ⟨"A"⟩))).record
    (.changeNodeAttributes ⟨"T"⟩ (Store.insert · "timeLimit:firstWarnDuration" "1H"))
  have isBuilt : Reached ⟨false, false⟩ ⟨"P"⟩ built :=
    .edit (.edit ((((Reached.new.addAlone _ _ _).addAlone _ _ _).addAlone _ _ _).addAlone _ _ _)
      trivial) trivial
  have answered : (TimeLimit.deadline.change "delegate" ⟨"T"⟩ (some " 2H")).answer built.graph =
      .ok (.installed ⟨.deadline, "2H", ⟨.duration, "PT2H"⟩⟩) := by
    decide +kernel
  exact ⟨built, isBuilt, by decide +kernel, answered, by decide +kernel,
    isBuilt.change_twice "delegate" ⟨"T"⟩ .deadline (some " 2H") answered (by decide +kernel)⟩

end BusinessProcess
