import BusinessProcess.Lint.Run
import BusinessProcess.Proofs.Store
import Mathlib.Data.List.Basic

/-!
# Registries and the rules that are on

A registry that was put together by registering rules and changing levels lists each rule under its
own name. Changing a level is therefore a change of the one rule of that name, and the rules that
are on stay in their order.
-/

namespace BusinessProcess

namespace Lint

namespace Registry

/-- The registries put together by registering rules and changing levels. -/
inductive Assembled : Registry → Prop where
  | empty : Assembled .empty
  | register {registry : Registry} (assembled : Assembled registry) (rule : Rule) (level : Level) :
      Assembled (registry.register rule level)
  | setLevel {registry changed : Registry} {name : String} {level : Level}
      (assembled : Assembled registry) (done : registry.setLevel name level = .ok changed) :
      Assembled changed

/-- The recommended registry is put together in this way. -/
theorem assembled_recommended : recommended.Assembled := by
  have grows : ∀ (entries : List (Rule × Severity)) (registry : Registry), registry.Assembled →
      (entries.foldl (fun registry entry => registry.register entry.1 (.on entry.2))
        registry).Assembled := by
    intro entries
    induction entries with
    | nil => exact fun _ assembled => assembled
    | cons entry rest inductionHypothesis =>
        exact fun registry assembled => inductionHypothesis _ (assembled.register _ _)
  exact grows recommendedRules .empty .empty

/-- Each rule is listed under its own name. -/
def Named (registry : Registry) : Prop :=
  ∀ entry ∈ registry.entries, entry.1 = entry.2.rule.name

variable {registry changed : Registry} {name : String} {level : Level}
  {registration : Registration}

/-- A level can be changed exactly where there is a rule of that name. -/
theorem setLevel_of_get? (found : registry.get? name = some registration) (level : Level) :
    registry.setLevel name level =
      .ok (registry.insert name { registration with level := level }) := by
  simp only [setLevel, found]

/-- A level that was changed belongs to a rule of that name. -/
theorem exists_of_setLevel (done : registry.setLevel name level = .ok changed) :
    ∃ registration, registry.get? name = some registration ∧
      changed = registry.insert name { registration with level := level } := by
  unfold setLevel at done
  split at done
  next registration found =>
    cases done
    exact ⟨registration, found, rfl⟩
  next => cases done

/-- Changing a level changes no name. -/
theorem Named.setLevel (named : registry.Named)
    (done : registry.setLevel name level = .ok changed) : changed.Named := by
  obtain ⟨registration, found, rfl⟩ := exists_of_setLevel done
  intro entry listed
  rcases Store.mem_entries_insert listed with rfl | before
  · exact named (_, registration) (Store.mem_entries_of_get? found)
  · exact named entry before

theorem Assembled.named (assembled : registry.Assembled) : registry.Named := by
  induction assembled with
  | empty => exact fun _ absent => absurd absent List.not_mem_nil
  | register _ rule level inductionHypothesis =>
      intro entry listed
      rcases Store.mem_entries_insert listed with rfl | before
      · rfl
      · exact inductionHypothesis entry before
  | setLevel _ done inductionHypothesis => exact inductionHypothesis.setLevel done

/-- A rule that is found has the name under which it is found. -/
theorem Named.name_eq (named : registry.Named) (found : registry.get? name = some registration) :
    registration.rule.name = name :=
  (named _ (Store.mem_entries_of_get? found)).symm

/-- Each registered rule is found under its name. -/
theorem Named.get?_of_mem (named : registry.Named) (listed : registration ∈ registry.values) :
    registry.get? registration.rule.name = some registration := by
  obtain ⟨⟨key, value⟩, present, rfl⟩ := List.mem_map.1 listed
  have key_eq : key = value.rule.name := named _ present
  subst key_eq
  exact Store.get?_of_mem_entries present

/-- The names of the registered rules are different. -/
theorem Named.nodup (named : registry.Named) :
    (registry.values.map fun registration => registration.rule.name).Nodup := by
  have keys : registry.values.map (fun registration => registration.rule.name) =
      registry.entries.map Prod.fst := by
    rw [Store.values, List.map_map]
    exact List.map_congr_left fun entry listed => (named entry listed).symm
  rw [keys]
  exact registry.distinct

/-- The registration with another level, if it is that of the rule with the given name. -/
def withLevel (name : String) (level : Level) (registration : Registration) : Registration :=
  if registration.rule.name = name then { registration with level := level } else registration

/-- Changing a level changes it at the rule of that name, in its place. -/
theorem Named.values_setLevel (named : registry.Named)
    (done : registry.setLevel name level = .ok changed) :
    changed.values = registry.values.map (withLevel name level) := by
  obtain ⟨registration, found, rfl⟩ := exists_of_setLevel done
  rw [Store.values, Store.entries_insert_of_mem (Store.mem_keys_of_get? found), List.map_map,
    Store.values, List.map_map]
  refine List.map_congr_left fun entry listed => ?_
  simp only [Function.comp_apply, withLevel, ← named entry listed]
  split
  next same =>
    have held : registry.get? entry.1 = some entry.2 := Store.get?_of_mem_entries listed
    rw [same, found] at held
    rw [← Option.some.inj held]
  next => rfl

end Registry

/-! ## Rules that are on -/

theorem ofRegistration?_eq_some_iff {registration : Registration} {active : ActiveRule} :
    ActiveRule.ofRegistration? registration = some active ↔
      registration.rule = active.rule ∧ registration.level = .on active.severity := by
  obtain ⟨rule, level⟩ := registration
  obtain ⟨other, severity⟩ := active
  cases level <;> simp [ActiveRule.ofRegistration?, Level.severity?]

/-- A rule that is on is found under its name, with its severity. -/
theorem Registry.Named.get?_of_active {registry : Registry} (named : registry.Named)
    {active : ActiveRule} (isActive : active ∈ activeRules registry) :
    registry.get? active.rule.name = some ⟨active.rule, .on active.severity⟩ := by
  obtain ⟨registration, listed, isOn⟩ := List.mem_filterMap.1 isActive
  obtain ⟨rule, level⟩ := ofRegistration?_eq_some_iff.1 isOn
  have found := named.get?_of_mem listed
  rw [rule] at found
  rw [found, ← rule, ← level]

/-- A registered rule that is on takes part. -/
theorem mem_activeRules {registry : Registry} {name : String} {rule : Rule} {severity : Severity}
    (found : registry.get? name = some ⟨rule, .on severity⟩) :
    ⟨rule, severity⟩ ∈ activeRules registry :=
  List.mem_filterMap.2 ⟨_, Store.mem_values_of_get? found,
    ofRegistration?_eq_some_iff.2 ⟨rfl, rfl⟩⟩

/-- The names of the rules that are on are different. -/
theorem Registry.Named.nodup_active {registry : Registry} (named : registry.Named) :
    ((activeRules registry).map fun active => active.rule.name).Nodup := by
  have listed : ∀ registrations : List Registration,
      ((registrations.filterMap ActiveRule.ofRegistration?).map fun active =>
        active.rule.name).Sublist
        (registrations.map fun registration => registration.rule.name) := by
    intro registrations
    induction registrations with
    | nil => exact .slnil
    | cons registration rest inductionHypothesis =>
        rw [List.filterMap_cons, List.map_cons]
        split
        next => exact inductionHypothesis.cons _
        next active isOn =>
          rw [List.map_cons, ← (ofRegistration?_eq_some_iff.1 isOn).1]
          exact inductionHypothesis.cons_cons _
  exact (listed registry.values).nodup named.nodup

/-- Of the rules that are on one has the name of a given one: this rule. -/
theorem Registry.Named.filter_active {registry : Registry} (named : registry.Named) {name : String}
    {rule : Rule} {severity : Severity}
    (found : registry.get? name = some ⟨rule, .on severity⟩) :
    (activeRules registry).filter (fun active => active.rule.name = name) = [⟨rule, severity⟩] := by
  have single : ∀ rules : List ActiveRule, (rules.map fun active => active.rule.name).Nodup →
      ⟨rule, severity⟩ ∈ rules →
        rules.filter (fun active => active.rule.name = rule.name) = [⟨rule, severity⟩] := by
    intro rules
    induction rules with
    | nil => exact fun _ absent => absurd absent List.not_mem_nil
    | cons active rest inductionHypothesis =>
        intro different member
        obtain ⟨fresh, differentRest⟩ := List.nodup_cons.1 different
        rcases List.mem_cons.1 member with rfl | later
        · have none : rest.filter (fun active => active.rule.name = rule.name) = [] :=
            List.filter_eq_nil_iff.2 fun other isLater same =>
              fresh (List.mem_map.2 ⟨other, isLater, of_decide_eq_true same⟩)
          rw [List.filter_cons, if_pos (decide_eq_true rfl), none]
        · have differs : active.rule.name ≠ rule.name := fun same =>
            fresh (List.mem_map.2 ⟨_, later, same.symm⟩)
          rw [List.filter_cons, if_neg (by simpa using differs),
            inductionHypothesis differentRest later]
  rw [← named.name_eq found]
  exact single _ named.nodup_active (mem_activeRules found)

/-- The rule with another severity, if it has the given name. -/
def ActiveRule.recast (name : String) (severity : Severity) (active : ActiveRule) : ActiveRule :=
  if active.rule.name = name then { active with severity := severity } else active

/-- Changing the level of a rule leaves the other rules that are on as they are. -/
theorem Registry.Named.active_others {registry changed : Registry} (named : registry.Named)
    {name : String} {level : Level} (done : registry.setLevel name level = .ok changed) :
    (activeRules changed).filter (fun active => active.rule.name ≠ name) =
      (activeRules registry).filter fun active => active.rule.name ≠ name := by
  rw [activeRules, activeRules, named.values_setLevel done, List.filterMap_map,
    List.filter_filterMap, List.filter_filterMap]
  refine List.filterMap_congr fun registration _ => ?_
  obtain ⟨rule, before⟩ := registration
  by_cases same : rule.name = name
  · cases level <;> cases before <;>
      simp [withLevel, same, ActiveRule.ofRegistration?, Level.severity?, Option.filter]
  · simp [withLevel, same]

/-- Changing a rule that is on to another severity recasts this rule and no other one. -/
theorem Registry.Named.active_recast {registry changed : Registry} (named : registry.Named)
    {name : String} {before severity : Severity}
    (isOn : registry.level? name = some (.on before))
    (done : registry.setLevel name (.on severity) = .ok changed) :
    activeRules changed = (activeRules registry).map (ActiveRule.recast name severity) := by
  rw [activeRules, activeRules, named.values_setLevel done, List.filterMap_map, List.map_filterMap]
  refine List.filterMap_congr fun registration listed => ?_
  have found := named.get?_of_mem listed
  obtain ⟨rule, level⟩ := registration
  by_cases same : rule.name = name
  · -- The rule of this name is on, so it takes part before and after.
    rw [same] at found
    obtain rfl : level = .on before := by simpa [level?, found] using isOn
    simp [withLevel, same, ActiveRule.ofRegistration?, Level.severity?, ActiveRule.recast]
  · cases level <;>
      simp [withLevel, same, ActiveRule.ofRegistration?, Level.severity?, ActiveRule.recast]

end Lint

end BusinessProcess
