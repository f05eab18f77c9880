import BusinessProcess.Editor
import BusinessProcess.Proofs.Lint.Registry
import BusinessProcess.Proofs.Lint.Tally

/-!
# Overrides of levels

Pairs of a rule and a word for a level are collapsed to one override for each rule, and these are
applied in their order. They are applied completely if each names a registered rule and a level;
otherwise those before the first that does not are. What has been applied shows in the levels of
the rules that were named and nowhere else, so it does not depend on the order. An editor therefore
has the recommended rules, at other levels at most.
-/

namespace BusinessProcess

namespace Lint

/-! ## Words for levels -/

namespace Level

/-- The words for levels. -/
def words : List String :=
  ["off", "error", "warn", "warning"]

/-- A word is read as a level exactly if it is the word for it. -/
theorem parse_eq_ok_iff {word : String} {level : Level} :
    parse word = .ok level ↔ word = level.text := by
  constructor
  · intro read
    unfold parse at read
    split at read
    next isOff =>
      cases read
      exact isOff
    next =>
      cases readSeverity : Severity.parse word with
      | error _ => simp [readSeverity, Except.map] at read
      | ok severity =>
          rw [readSeverity] at read
          cases read
          exact Severity.parse_eq_ok_iff.1 readSeverity
  · rintro rfl
    cases level with
    | off => rfl
    | on severity => cases severity <;> rfl

/-- The words for levels are those that some level is written with. -/
theorem mem_words_iff {word : String} : word ∈ words ↔ ∃ level : Level, word = level.text := by
  constructor
  · intro member
    simp only [words, List.mem_cons, List.not_mem_nil, or_false] at member
    obtain rfl | rfl | rfl | rfl := member
    · exact ⟨.off, rfl⟩
    · exact ⟨.on .error, rfl⟩
    · exact ⟨.on .warn, rfl⟩
    · exact ⟨.on .warning, rfl⟩
  · rintro ⟨level, rfl⟩
    cases level with
    | off => decide
    | on severity => cases severity <;> decide

/-- Levels are written with different words. -/
theorem text_inj {first second : Level} : first.text = second.text ↔ first = second := by
  constructor
  · intro same
    have read : parse first.text = .ok first := parse_eq_ok_iff.2 rfl
    rw [parse_eq_ok_iff.2 same] at read
    exact (Except.ok.inj read).symm
  · rintro rfl
    rfl

/-- Any other word is refused, and the refusal repeats it. -/
theorem parse_of_not_mem_words {word : String} (unknown : word ∉ words) :
    parse word = .error (.invalidLevel word) := by
  simp only [words, List.mem_cons, List.not_mem_nil, or_false, not_or] at unknown
  obtain ⟨notOff, notError, notWarn, notWarning⟩ := unknown
  simp only [parse, Severity.parse, notOff, notError, notWarn, notWarning, if_false, Except.map]

end Level

/-! ## Registries with other levels -/

namespace Registry

variable {registry changed : Registry} {name : String} {level : Level}

/-- The rules of a registry with their names, in the order in which they run. -/
def rules (registry : Registry) : List (String × Rule) :=
  registry.entries.map fun entry => (entry.1, entry.2.rule)

/-- A registry is its rules with their levels. -/
theorem entries_eq_map_rules (registry : Registry) :
    registry.entries = registry.rules.map fun entry =>
      (entry.1, ⟨entry.2, (registry.level? entry.1).getD .off⟩) := by
  rw [rules, List.map_map]
  symm
  refine (List.map_congr_left fun entry listed => ?_).trans (List.map_id registry.entries)
  simp only [Function.comp_apply, level?, Store.get?_of_mem_entries listed, Option.map_some,
    Option.getD_some, id_eq]

/-- Registries with the same rules and the same levels are the same. -/
theorem ext_rules {first second : Registry} (rules : first.rules = second.rules)
    (levels : ∀ name, first.level? name = second.level? name) : first = second := by
  apply Store.ext
  rw [first.entries_eq_map_rules, second.entries_eq_map_rules, rules]
  exact List.map_congr_left fun entry _ => by rw [levels]

theorem keys_eq_map_rules (registry : Registry) : registry.keys = registry.rules.map Prod.fst := by
  rw [Store.keys, rules, List.map_map]
  rfl

/-- Changing a level changes no rule, no name and no place. -/
theorem rules_setLevel (done : registry.setLevel name level = .ok changed) :
    changed.rules = registry.rules := by
  obtain ⟨registration, found, rfl⟩ := exists_of_setLevel done
  rw [rules, Store.entries_insert_of_mem (Store.mem_keys_of_get? found), List.map_map, rules]
  refine List.map_congr_left fun entry listed => ?_
  rw [Function.comp_apply]
  split
  next same =>
    have held := Store.get?_of_mem_entries listed
    rw [same, found] at held
    rw [← Option.some.inj held]
  next => rfl

end Registry

end Lint

/-! ## Single overrides -/

namespace Overrides

open Lint

/-- The override gives a registered rule one of the levels that there are. -/
def Fits (registry : Registry) (entry : String × String) : Prop :=
  entry.1 ∈ registry.keys ∧ entry.2 ∈ Level.words

/-- Why an override is refused. A word that is no level comes before a rule that is not
registered. -/
inductive Refused (registry : Registry) : String × String → ConfigurationError → Prop where
  | level {rule word : String} (unknown : word ∉ Level.words) :
      Refused registry (rule, word) (.invalidLevel rule (.invalidLevel word))
  | rule {rule word : String} (known : word ∈ Level.words) (unregistered : rule ∉ registry.keys) :
      Refused registry (rule, word) (.unknownRule (.unknownRule rule))

variable {registry changed : Registry} {entry : String × String} {error : ConfigurationError}

theorem Refused.not_fits (refused : Refused registry entry error) : ¬ Fits registry entry := by
  rintro ⟨registered, known⟩
  cases refused with
  | level unknown => exact unknown known
  | rule _ unregistered => exact unregistered registered

theorem fits_or_refused (registry : Registry) (entry : String × String) :
    Fits registry entry ∨ ∃ error, Refused registry entry error := by
  obtain ⟨rule, word⟩ := entry
  by_cases known : word ∈ Level.words
  · by_cases registered : rule ∈ registry.keys
    · exact .inl ⟨registered, known⟩
    · exact .inr ⟨_, .rule known registered⟩
  · exact .inr ⟨_, .level known⟩

/-- Whether an override fits depends on the names of the rules only. -/
theorem fits_congr {other : Registry} (keys : other.keys = registry.keys) :
    Fits other entry ↔ Fits registry entry := by
  rw [Fits, Fits, keys]

theorem Refused.congr {other : Registry} (keys : other.keys = registry.keys)
    (refused : Refused registry entry error) : Refused other entry error := by
  cases refused with
  | level unknown => exact .level unknown
  | rule known unregistered => exact .rule known (keys ▸ unregistered)

/-- An override that fits changes the level of its rule. -/
theorem applyOne_of_fits (fits : Fits registry entry) : ∃ level changed, entry.2 = level.text ∧
    registry.setLevel entry.1 level = .ok changed ∧
    applyOne registry entry.1 entry.2 = .ok changed := by
  obtain ⟨registered, known⟩ := fits
  obtain ⟨level, written⟩ := Level.mem_words_iff.1 known
  obtain ⟨registration, found⟩ := Option.isSome_iff_exists.1 (Store.mem_keys_iff.1 registered)
  have done := Registry.setLevel_of_get? found level
  refine ⟨level, _, written, done, ?_⟩
  simp only [applyOne, Level.parse_eq_ok_iff.2 written, done]

/-- An override that is refused changes nothing. -/
theorem applyOne_of_refused (refused : Refused registry entry error) :
    applyOne registry entry.1 entry.2 = .error error := by
  cases refused with
  | level unknown => simp only [applyOne, Level.parse_of_not_mem_words unknown]
  | @rule rule word known unregistered =>
      obtain ⟨level, written⟩ := Level.mem_words_iff.1 known
      have missing : registry.get? rule = none := by
        rw [← Option.not_isSome_iff_eq_none]
        exact mt Store.mem_keys_iff.2 unregistered
      simp only [applyOne, Level.parse_eq_ok_iff.2 written, Registry.setLevel, missing]

/-! ## What overrides change -/

/-- The rules of the entries have the levels of the entries. All other levels are as before, and so
are the rules, their names and their order. -/
structure Relevels (registry : Registry) (entries : List (String × String)) (changed : Registry) :
    Prop where
  rules : changed.rules = registry.rules
  listed : ∀ entry ∈ entries, ∃ level : Level, entry.2 = level.text ∧
    changed.level? entry.1 = some level
  others : ∀ name ∉ entries.map Prod.fst, changed.level? name = registry.level? name

namespace Relevels

variable {entries : List (String × String)}

theorem refl (registry : Registry) : Relevels registry [] registry :=
  ⟨rfl, nofun, fun _ _ => rfl⟩

theorem keys (relevels : Relevels registry entries changed) : changed.keys = registry.keys := by
  rw [Registry.keys_eq_map_rules, relevels.rules, ← Registry.keys_eq_map_rules]

/-- An entry written with the word for a level gives its rule this level. -/
theorem level?_eq {name : String} {level : Level} (relevels : Relevels registry entries changed)
    (isListed : (name, level.text) ∈ entries) : changed.level? name = some level := by
  obtain ⟨other, written, found⟩ := relevels.listed _ isListed
  rw [found, Level.text_inj.1 written]

/-- One more entry, for a rule that none of the others is for. -/
theorem cons {middle : Registry} {level : Level}
    (written : entry.2 = level.text) (done : registry.setLevel entry.1 level = .ok middle)
    (relevels : Relevels middle entries changed) (fresh : entry.1 ∉ entries.map Prod.fst) :
    Relevels registry (entry :: entries) changed where
  rules := relevels.rules.trans (Registry.rules_setLevel done)
  listed := by
    rintro other member
    rcases List.mem_cons.1 member with rfl | later
    · refine ⟨level, written, ?_⟩
      rw [relevels.others _ fresh, Registry.level?_setLevel done, if_pos rfl]
    · exact relevels.listed other later
  others := by
    intro name notListed
    obtain ⟨differs, notLater⟩ := not_or.1 (mt List.mem_cons.2 notListed)
    rw [relevels.others name notLater, Registry.level?_setLevel done, if_neg differs]

/-- What the entries change is determined, whatever their order. -/
theorem unique {others : List (String × String)} {other : Registry}
    (relevels : Relevels registry entries changed) (same : entries.Perm others)
    (also : Relevels registry others other) : changed = other := by
  apply Registry.ext_rules (relevels.rules.trans also.rules.symm)
  intro name
  by_cases isListed : name ∈ entries.map Prod.fst
  · obtain ⟨entry, member, rfl⟩ := List.mem_map.1 isListed
    obtain ⟨level, written, found⟩ := relevels.listed entry member
    have alsoListed : (entry.1, level.text) ∈ others := written ▸ same.mem_iff.1 member
    rw [found, also.level?_eq alsoListed]
  · have notInOthers : name ∉ others.map Prod.fst := mt ((same.map Prod.fst).mem_iff.2) isListed
    rw [relevels.others name isListed, also.others name notInOthers]

end Relevels

/-! ## Several overrides -/

/-- Entries that fit are all applied. -/
theorem applyAll_of_fits {entries : List (String × String)}
    (distinct : (entries.map Prod.fst).Nodup) (fits : ∀ entry ∈ entries, Fits registry entry) :
    ∃ changed, applyAll registry entries = (changed, .ok ()) ∧
      Relevels registry entries changed := by
  induction entries generalizing registry with
  | nil => exact ⟨registry, rfl, .refl registry⟩
  | cons entry rest inductionHypothesis =>
      obtain ⟨fresh, distinctRest⟩ := List.nodup_cons.1 distinct
      obtain ⟨fitsHere, fitsLater⟩ := List.forall_mem_cons.1 fits
      obtain ⟨level, middle, written, done, applied⟩ := applyOne_of_fits fitsHere
      have keys := Registry.keys_setLevel done
      obtain ⟨changed, appliedRest, relevels⟩ := inductionHypothesis distinctRest
        fun other later => (fits_congr keys).2 (fitsLater other later)
      refine ⟨changed, ?_, relevels.cons written done fresh⟩
      rw [applyAll, applied]
      exact appliedRest

theorem applyAll_append {first second : List (String × String)}
    (applied : applyAll registry first = (changed, .ok ())) :
    applyAll registry (first ++ second) = applyAll changed second := by
  induction first generalizing registry with
  | nil =>
      cases applied
      rfl
  | cons entry rest inductionHypothesis =>
      rw [List.cons_append, applyAll]
      rw [applyAll] at applied
      split at applied
      next => exact inductionHypothesis applied
      next => cases applied

/-- The first entry that is refused stops the application: the entries before it are applied, and
it itself and those after it are not. -/
theorem applyAll_of_refused {before after : List (String × String)}
    (distinct : (before.map Prod.fst).Nodup) (fits : ∀ other ∈ before, Fits registry other)
    (refused : Refused registry entry error) :
    ∃ changed, applyAll registry (before ++ entry :: after) = (changed, .error error) ∧
      Relevels registry before changed := by
  obtain ⟨changed, applied, relevels⟩ := applyAll_of_fits distinct fits
  refine ⟨changed, ?_, relevels⟩
  rw [applyAll_append applied, applyAll, applyOne_of_refused (refused.congr relevels.keys)]

/-- Entries that do not all fit have a first one that is refused. -/
theorem exists_first_refused {entries : List (String × String)}
    (unfit : ¬ ∀ entry ∈ entries, Fits registry entry) :
    ∃ before entry after error, entries = before ++ entry :: after ∧
      (∀ other ∈ before, Fits registry other) ∧ Refused registry entry error := by
  induction entries with
  | nil => exact absurd nofun unfit
  | cons entry rest inductionHypothesis =>
      obtain fits | ⟨error, refused⟩ := fits_or_refused registry entry
      · have unfitLater : ¬ ∀ other ∈ rest, Fits registry other := fun later =>
          unfit (List.forall_mem_cons.2 ⟨fits, later⟩)
        obtain ⟨before, stop, after, error, rfl, fitsBefore, refused⟩ :=
          inductionHypothesis unfitLater
        exact ⟨entry :: before, stop, after, error, rfl,
          List.forall_mem_cons.2 ⟨fits, fitsBefore⟩, refused⟩
      · exact ⟨[], entry, rest, error, rfl, nofun, refused⟩

/-- What comes of applying entries to a registry: all of them are applied, or those before the
first that is refused. -/
inductive Applies (registry : Registry) (entries : List (String × String)) :
    Registry × Except ConfigurationError Unit → Prop where
  | complete {changed : Registry} (fits : ∀ entry ∈ entries, Fits registry entry)
      (relevels : Relevels registry entries changed) : Applies registry entries (changed, .ok ())
  | stopped {changed : Registry} {before after : List (String × String)}
      {entry : String × String} {error : ConfigurationError}
      (whole : entries = before ++ entry :: after) (fits : ∀ other ∈ before, Fits registry other)
      (refused : Refused registry entry error) (relevels : Relevels registry before changed) :
      Applies registry entries (changed, .error error)

variable {entries : List (String × String)} {outcome : Registry × Except ConfigurationError Unit}

theorem Applies.applyAll_eq (applies : Applies registry entries outcome)
    (distinct : (entries.map Prod.fst).Nodup) : applyAll registry entries = outcome := by
  cases applies with
  | complete fits relevels =>
      obtain ⟨changed, applied, also⟩ := applyAll_of_fits distinct fits
      rw [applied, relevels.unique (.refl _) also]
  | stopped whole fits refused relevels =>
      subst whole
      rw [List.map_append, List.nodup_append] at distinct
      obtain ⟨changed, applied, also⟩ := applyAll_of_refused distinct.1 fits refused
      rw [applied, relevels.unique (.refl _) also]

/-- Entries for different rules always come to something. -/
theorem exists_applies (registry : Registry) (distinct : (entries.map Prod.fst).Nodup) :
    ∃ outcome, Applies registry entries outcome := by
  by_cases fits : ∀ entry ∈ entries, Fits registry entry
  · obtain ⟨changed, -, relevels⟩ := applyAll_of_fits distinct fits
    exact ⟨_, .complete fits relevels⟩
  · obtain ⟨before, entry, after, error, rfl, fitsBefore, refused⟩ := exists_first_refused fits
    rw [List.map_append, List.nodup_append] at distinct
    obtain ⟨changed, -, relevels⟩ := applyAll_of_fits distinct.1 fitsBefore
    exact ⟨_, .stopped rfl fitsBefore refused relevels⟩

/-- Applying overrides answers what comes of it, and nothing else. -/
theorem apply_eq_iff {overrides : Overrides} :
    overrides.apply registry = outcome ↔ Applies registry overrides.entries outcome := by
  constructor
  · obtain ⟨other, applies⟩ := exists_applies registry overrides.distinct
    rw [apply, applies.applyAll_eq overrides.distinct]
    rintro rfl
    exact applies
  · exact fun applies => applies.applyAll_eq overrides.distinct

/-- Overrides are applied without an error exactly if all of them fit. -/
theorem apply_snd_eq_ok_iff {overrides : Overrides} :
    (overrides.apply registry).2 = .ok () ↔ ∀ entry ∈ overrides.entries, Fits registry entry := by
  generalize found : overrides.apply registry = outcome
  cases apply_eq_iff.1 found with
  | complete fits => exact iff_of_true rfl fits
  | stopped whole _ refused =>
      refine iff_of_false nofun fun fits => refused.not_fits (fits _ ?_)
      rw [whole]
      exact List.mem_append_right _ List.mem_cons_self

/-- The same overrides in another order fit if these do, and change the same. -/
theorem apply_perm {overrides others : Overrides}
    (same : overrides.entries.Perm others.entries) :
    ((others.apply registry).2 = .ok () ↔ (overrides.apply registry).2 = .ok ()) ∧
      ((overrides.apply registry).2 = .ok () →
        others.apply registry = overrides.apply registry) := by
  have fitsIff : (∀ entry ∈ others.entries, Fits registry entry) ↔
      ∀ entry ∈ overrides.entries, Fits registry entry :=
    forall_congr' fun entry => imp_congr_left same.mem_iff.symm
  refine ⟨by rw [apply_snd_eq_ok_iff, apply_snd_eq_ok_iff, fitsIff], fun succeeds => ?_⟩
  have fits := apply_snd_eq_ok_iff.1 succeeds
  obtain ⟨changed, applied, relevels⟩ := applyAll_of_fits overrides.distinct fits
  obtain ⟨other, appliedOther, also⟩ := applyAll_of_fits others.distinct (fitsIff.2 fits)
  rw [apply, apply, applied, appliedOther, relevels.unique same also]

/-- What is kept by each change of a level that an entry asks for is kept however far the entries
are applied. -/
theorem applyAll_keeps (property : Registry → Prop)
    (keeps : ∀ entry ∈ entries, ∀ level : Level, entry.2 = level.text →
      ∀ before after : Registry, before.setLevel entry.1 level = .ok after →
        property before → property after)
    (holds : property registry) : property (applyAll registry entries).1 := by
  induction entries generalizing registry with
  | nil => exact holds
  | cons entry rest inductionHypothesis =>
      obtain ⟨keepsHere, keepsLater⟩ := List.forall_mem_cons.1 keeps
      obtain fits | ⟨error, refused⟩ := fits_or_refused registry entry
      · obtain ⟨level, middle, written, done, applied⟩ := applyOne_of_fits fits
        rw [applyAll, applied]
        exact inductionHypothesis keepsLater (keepsHere level written _ _ done holds)
      · rw [applyAll, applyOne_of_refused refused]
        exact holds

end Overrides

/-! ## Editors -/

/-- An editor cannot be made exactly if the overrides cannot be applied to the recommended rules,
and for the same reason. -/
theorem Editor.ofConfiguration_eq_error_iff {configuration : Configuration} {error : EditorError} :
    ofConfiguration configuration = .error error ↔ ∃ cause, error = .configuration cause ∧
      (configuration.rules.apply Lint.Registry.recommended).2 = .error cause := by
  unfold ofConfiguration
  split
  next applied => simp [applied]
  next cause applied => simp [applied, eq_comm]

/-- An editor has the recommended rules, whatever the levels. Unless a rule is switched off, all of
them are on. -/
theorem Editor.rules_of_ofConfiguration {configuration : Configuration} {editor : Editor}
    (made : ofConfiguration configuration = .ok editor) :
    editor.registry.rules = Lint.Registry.recommended.rules ∧ editor.registry.Assembled ∧
      editor.registry.BuiltIn ∧
      ((∀ entry ∈ configuration.rules.entries, entry.2 ≠ "off") → editor.registry.AllOn) := by
  have applied : editor.registry = (configuration.rules.apply Lint.Registry.recommended).1 := by
    unfold ofConfiguration at made
    split at made
    next registry applied =>
      cases made
      rw [applied]
    next => cases made
  rw [applied, Overrides.apply]
  refine ⟨?_, ?_, ?_, fun noneOff => ?_⟩
  · refine Overrides.applyAll_keeps (·.rules = Lint.Registry.recommended.rules) ?_ rfl
    exact fun _ _ _ _ _ _ done same => (Lint.Registry.rules_setLevel done).trans same
  · refine Overrides.applyAll_keeps Lint.Registry.Assembled ?_ Lint.Registry.assembled_recommended
    exact fun _ _ _ _ _ _ done assembled => assembled.setLevel done
  · refine Overrides.applyAll_keeps Lint.Registry.BuiltIn ?_ Lint.Registry.builtIn_recommended
    exact fun _ _ _ _ _ _ done builtIn => builtIn.setLevel done
  · refine Overrides.applyAll_keeps Lint.Registry.AllOn ?_ Lint.Registry.allOn_recommended
    intro entry listed level written before after done allOn
    cases level with
    | off => exact absurd written (noneOff entry listed)
    | on severity => exact allOn.setLevel done

/-! ## From pairs to registries -/

namespace Overrides

open Lint

/-- Pairs are collapsed to one override for each rule, in the place of the first pair of the rule
and with the word of the last. All overrides are applied if each of them is for a registered rule
and a word for a level; then the rules have the levels listed for them and the registry is
otherwise as before, so that the order of pairs for different rules makes no difference. If not,
those before the first that is refused are applied in this sense, and no others. An editor is
refused exactly where the overrides cannot be applied to the recommended rules. -/
theorem applied_up_to_refusal (pairs : List (String × String)) (registry : Registry) :
    let overrides : Overrides := .ofList pairs
    (overrides.keys = (pairs.map Prod.fst).eraseDups ∧
      ∀ rule, overrides.get? rule = (pairs.filter (·.1 = rule)).getLast?.map Prod.snd) ∧
    ((overrides.apply registry).2 = .ok () ↔ ∀ entry ∈ overrides.entries,
      entry.1 ∈ registry.keys ∧ entry.2 ∈ ["off", "error", "warn", "warning"]) ∧
    (∀ outcome, overrides.apply registry = outcome ↔
      Applies registry overrides.entries outcome) ∧
    ((pairs.map Prod.fst).Nodup → ∀ others : List (String × String), pairs.Perm others →
      ((apply (.ofList others) registry).2 = .ok () ↔ (overrides.apply registry).2 = .ok ()) ∧
      ((overrides.apply registry).2 = .ok () →
        apply (.ofList others) registry = overrides.apply registry)) ∧
    ∀ delegate error, Editor.ofConfiguration ⟨overrides, delegate⟩ = .error error ↔
      ∃ cause, error = .configuration cause ∧
        (overrides.apply Registry.recommended).2 = .error cause := by
  refine ⟨⟨Store.keys_ofList pairs, Store.get?_ofList pairs⟩, apply_snd_eq_ok_iff,
    fun _ => apply_eq_iff, fun distinct others same => apply_perm ?_,
    fun _ _ => Editor.ofConfiguration_eq_error_iff⟩
  have distinctOthers := (same.map Prod.fst).nodup_iff.1 distinct
  rw [Store.entries_ofList distinct, Store.entries_ofList distinctOthers]
  exact same

/-- A rule that is named twice is switched off with its second word, before an unknown rule stops
the application; a third rule that comes later keeps its level. Two overrides that fit change the
same in either order. -/
theorem stopped_at_unknown_rule :
    let pairs := [("fake-join", "loud"), ("label-required", "warn"), ("fake-join", "off"),
      ("no-such-rule", "error"), ("no-disconnected", "off")]
    (∃ changed, apply (.ofList pairs) Registry.recommended =
        (changed, .error (.unknownRule (.unknownRule "no-such-rule"))) ∧
      changed.level? "fake-join" = some .off ∧ changed.level? "label-required" = some (.on .warn) ∧
      changed.level? "no-disconnected" = some (.on .error)) ∧
    apply (.ofList [("label-required", "warn"), ("fake-join", "off")]) Registry.recommended =
      apply (.ofList [("fake-join", "off"), ("label-required", "warn")]) Registry.recommended := by
  intro pairs
  constructor
  · obtain ⟨-, -, outcomes, -⟩ := applied_up_to_refusal pairs Registry.recommended
    have fits : ∀ entry ∈ [("fake-join", "off"), ("label-required", "warn")],
        Fits Registry.recommended entry := by
      simp only [List.forall_mem_cons, Fits]
      exact ⟨by decide, by decide, nofun⟩
    obtain ⟨changed, -, relevels⟩ := applyAll_of_fits (by decide) fits
    refine ⟨changed, (outcomes _).2 (.stopped rfl fits (.rule (by decide) (by decide)) relevels),
      relevels.level?_eq (by decide), relevels.level?_eq (by decide), ?_⟩
    rw [relevels.others "no-disconnected" (by decide)]
    rfl
  · obtain ⟨-, succeeds, -, order, -⟩ := applied_up_to_refusal
      [("fake-join", "off"), ("label-required", "warn")] Registry.recommended
    refine (order (by decide) _ (.swap _ _ _)).2 (succeeds.2 ?_)
    decide

end Overrides

end BusinessProcess
