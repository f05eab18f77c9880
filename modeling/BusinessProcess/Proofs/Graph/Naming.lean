import Mathlib.Computability.Language
import BusinessProcess.Proofs.Graph.Face
import BusinessProcess.Proofs.History.Removal
import BusinessProcess.Proofs.Text.Numeral

/-!
# Names for elements

A proposed id is judged by a grammar: names, names behind a namespace, texts with white space, and
the rest. The checks are made in an order, but no text falls under two of them, so the order makes
no difference. An id that is accepted for a new element is free, so that the element can be added
wherever there is a container for it.
-/

namespace BusinessProcess

open scoped Computability

namespace ElementId

/-! ## The grammar of names -/

/-- A letter of ASCII: `[A-Za-z]`. -/
def IsLetter (character : Char) : Prop :=
  ('A' ≤ character ∧ character ≤ 'Z') ∨ ('a' ≤ character ∧ character ≤ 'z')

/-- A digit of ASCII: `[0-9]`. -/
def IsDigit (character : Char) : Prop :=
  '0' ≤ character ∧ character ≤ '9'

/-- What may stand inside a name: `[A-Za-z0-9_.-]`. -/
def IsInner (character : Char) : Prop :=
  IsLetter character ∨ IsDigit character ∨ character = '_' ∨ character = '.' ∨ character = '-'

/-- The texts of one character that is allowed. -/
def oneOf (allowed : Char → Prop) : Language Char :=
  {word | ∃ character, word = [character] ∧ allowed character}

/-- The words with an allowed character in front: `[…][A-Za-z0-9_.-]*`. -/
def headed (allowed : Char → Prop) : Language Char :=
  oneOf allowed * (oneOf IsInner)∗

/-- Names: `[A-Za-z_][A-Za-z0-9_.-]*`. -/
def names : Language Char :=
  headed fun character => IsLetter character ∨ character = '_'

/-- Names behind a namespace: `[A-Za-z][A-Za-z0-9_.-]*`, a colon and a name. -/
def prefixedNames : Language Char :=
  headed IsLetter * (oneOf (· = ':') * names)

/-- A word that begins with a word of one character is that character and the rest. -/
theorem mem_oneOf_mul {allowed : Char → Prop} {rest : Language Char} {word : List Char} :
    word ∈ oneOf allowed * rest ↔
      ∃ first others, word = first :: others ∧ allowed first ∧ others ∈ rest := by
  rw [Language.mem_mul]
  constructor
  · rintro ⟨_, ⟨first, rfl, fits⟩, others, member, rfl⟩
    exact ⟨first, others, rfl, fits, member⟩
  · rintro ⟨first, others, rfl, fits, member⟩
    exact ⟨[first], ⟨first, rfl, fits⟩, others, member, rfl⟩

/-- Repeating allowed characters gives all the words made of them. -/
theorem mem_kstar_oneOf {allowed : Char → Prop} {word : List Char} :
    word ∈ (oneOf allowed)∗ ↔ ∀ character ∈ word, allowed character := by
  rw [Language.mem_kstar]
  constructor
  · rintro ⟨pieces, rfl, each⟩ character member
    obtain ⟨piece, isPiece, inPiece⟩ := List.mem_flatten.1 member
    obtain ⟨only, rfl, fits⟩ := each piece isPiece
    rw [List.mem_singleton.1 inPiece]
    exact fits
  · intro all
    refine ⟨word.map fun character => [character], ?_, fun piece isPiece => ?_⟩
    · rw [← List.flatMap_def, List.flatMap_singleton']
    · obtain ⟨character, member, rfl⟩ := List.mem_map.1 isPiece
      exact ⟨character, rfl, all character member⟩

/-- A headed word is an allowed character and then inner ones. -/
theorem mem_headed {allowed : Char → Prop} {word : List Char} :
    word ∈ headed allowed ↔ ∃ first others, word = first :: others ∧ allowed first ∧
      ∀ character ∈ others, IsInner character := by
  rw [headed, mem_oneOf_mul]
  simp only [mem_kstar_oneOf]

/-- A headed word stays one when inner characters are added. -/
theorem append_mem_headed {allowed : Char → Prop} {word ending : List Char}
    (isHeaded : word ∈ headed allowed) (inner : ∀ character ∈ ending, IsInner character) :
    word ++ ending ∈ headed allowed := by
  obtain ⟨first, others, rfl, fits, rest⟩ := mem_headed.1 isHeaded
  refine mem_headed.2 ⟨first, others ++ ending, List.cons_append, fits, ?_⟩
  intro character member
  exact (List.mem_append.1 member).elim (rest character) (inner character)

/-- Whatever heads a name may also stand inside, so a headed word has inner characters only. -/
theorem isInner_of_mem_headed {allowed : Char → Prop}
    (inner : ∀ character, allowed character → IsInner character) {word : List Char}
    (isHeaded : word ∈ headed allowed) : ∀ character ∈ word, IsInner character := by
  obtain ⟨first, others, rfl, fits, rest⟩ := mem_headed.1 isHeaded
  intro character member
  rcases List.mem_cons.1 member with rfl | isOther
  · exact inner _ fits
  · exact rest character isOther

theorem isInner_of_mem_names {word : List Char} (isName : word ∈ names) :
    ∀ character ∈ word, IsInner character := by
  apply isInner_of_mem_headed _ isName
  rintro character (letter | rfl)
  · exact .inl letter
  · exact .inr (.inr (.inl rfl))

/-- A name behind a namespace has a part on each side of the colon. -/
theorem mem_prefixedNames {word : List Char} : word ∈ prefixedNames ↔
    ∃ space name, word = space ++ ':' :: name ∧ space ∈ headed IsLetter ∧ name ∈ names := by
  rw [prefixedNames, Language.mem_mul]
  simp only [mem_oneOf_mul]
  constructor
  · rintro ⟨space, isSpace, _, ⟨_, name, rfl, rfl, isName⟩, rfl⟩
    exact ⟨space, name, rfl, isSpace, isName⟩
  · rintro ⟨space, name, rfl, isSpace, isName⟩
    exact ⟨space, isSpace, _, ⟨_, name, rfl, rfl, isName⟩, rfl⟩

/-! ## Reading names -/

theorem isAlpha_iff {character : Char} : character.isAlpha = true ↔ IsLetter character := by
  have upper : character.isUpper = true ↔ 'A' ≤ character ∧ character ≤ 'Z' := decide_eq_true_iff
  have lower : character.isLower = true ↔ 'a' ≤ character ∧ character ≤ 'z' :=
    Bool.and_eq_true_iff.trans (and_congr decide_eq_true_iff decide_eq_true_iff)
  exact Bool.or_eq_true_iff.trans (or_congr upper lower)

theorem isNameCharacter_iff {character : Char} :
    isNameCharacter character = true ↔ IsInner character := by
  simp only [isNameCharacter, Char.isAlphanum, Bool.or_eq_true, decide_eq_true_eq, isAlpha_iff,
    Text.Decimal.isDigit_iff, IsInner, IsDigit]
  tauto

/-- No inner character is a blank. -/
theorem isBlank_of_isInner {character : Char} (inner : IsInner character) :
    Text.isBlank character = false := by
  have point : 45 ≤ character.toNat ∧ character.toNat ≤ 122 := by
    obtain (⟨low, high⟩ | ⟨low, high⟩) | ⟨low, high⟩ | rfl | rfl | rfl := inner
    · exact ⟨Nat.le_trans (by decide) low, Nat.le_trans high (by decide)⟩
    · exact ⟨Nat.le_trans (by decide) low, Nat.le_trans high (by decide)⟩
    · exact ⟨Nat.le_trans (by decide) low, Nat.le_trans high (by decide)⟩
    · decide
    · decide
    · decide
  simp only [Text.isBlank, Bool.or_eq_false_iff, Bool.and_eq_false_iff, decide_eq_false_iff_not,
    beq_eq_false_iff_ne]
  omega

/-- The colon separates: it is no inner character. -/
theorem not_isInner_colon : ¬ IsInner ':' := by
  rw [← isNameCharacter_iff]
  decide

theorem isName_iff {characters : List Char} : isName characters = true ↔ characters ∈ names := by
  rw [names, mem_headed]
  cases characters with
  | nil => simp [isName]
  | cons first others => simp [isName, isAlpha_iff, isNameCharacter_iff]

theorem isNamespace_iff {characters : List Char} :
    isNamespace characters = true ↔ characters ∈ headed IsLetter := by
  rw [mem_headed]
  cases characters with
  | nil => simp [isNamespace]
  | cons first others => simp [isNamespace, isAlpha_iff, isNameCharacter_iff]

/-! ## The form of a proposed id -/

/-- What is said about the form of a proposed id, with the one condition under which it is. -/
inductive Form (candidate : String) : Except Flaw Unit → Prop where
  | spaced (blank : ∃ character ∈ candidate.toList, Text.isBlank character = true) :
      Form candidate (.error .containsSpace)
  | name (isName : candidate.toList ∈ names) : Form candidate (.ok ())
  | prefixed (isPrefixed : candidate.toList ∈ prefixedNames) : Form candidate (.error .prefixed)
  | other (unspaced : ∀ character ∈ candidate.toList, Text.isBlank character = false)
      (noName : candidate.toList ∉ names) (notPrefixed : candidate.toList ∉ prefixedNames) :
      Form candidate (.error .invalidName)

variable {candidate : String}

theorem any_isBlank_eq_false_iff : candidate.toList.any Text.isBlank = false ↔
    ∀ character ∈ candidate.toList, Text.isBlank character = false := by
  simp only [List.any_eq_false, Bool.not_eq_true]

theorem unspaced_of_mem_names {word : List Char} (isName : word ∈ names) :
    ∀ character ∈ word, Text.isBlank character = false := by
  intro character member
  exact isBlank_of_isInner (isInner_of_mem_names isName character member)

/-- A name behind a namespace has no blanks either, and is no name. -/
theorem unspaced_of_mem_prefixedNames {word : List Char} (isPrefixed : word ∈ prefixedNames) :
    (∀ character ∈ word, Text.isBlank character = false) ∧ word ∉ names := by
  obtain ⟨space, name, rfl, isSpace, isName⟩ := mem_prefixedNames.1 isPrefixed
  constructor
  · intro character member
    rcases List.mem_append.1 member with inSpace | behind
    · exact isBlank_of_isInner (isInner_of_mem_headed (fun _ => .inl) isSpace character inSpace)
    · rcases List.mem_cons.1 behind with rfl | inName
      · decide
      · exact unspaced_of_mem_names isName character inName
  · intro isWhole
    exact not_isInner_colon (isInner_of_mem_names isWhole ':' (by simp))

/-- The first colon is where a namespace ends, which has none itself. -/
theorem mem_prefixedNames_iff_cutAt? {word : List Char} : word ∈ prefixedNames ↔
    ∃ space name, Text.cutAt? ':' word = some (space, name) ∧ isNamespace space = true ∧
      isName name = true := by
  simp only [mem_prefixedNames, isNamespace_iff, isName_iff, Text.cutAt?_eq_some_iff]
  constructor
  · rintro ⟨space, name, rfl, isSpace, isName⟩
    have noColon : ':' ∉ space := fun member =>
      not_isInner_colon (isInner_of_mem_headed (fun _ => .inl) isSpace ':' member)
    exact ⟨space, name, ⟨rfl, noColon⟩, isSpace, isName⟩
  · rintro ⟨space, name, ⟨whole, -⟩, isSpace, isName⟩
    exact ⟨space, name, whole, isSpace, isName⟩

/-- What is said about a form is what the check answers. -/
theorem Form.checkForm_eq {result : Except Flaw Unit} (form : Form candidate result) :
    checkForm candidate = result := by
  cases form with
  | spaced blank => exact if_pos (List.any_eq_true.2 blank)
  | name isName =>
      have unspaced := any_isBlank_eq_false_iff.2 (unspaced_of_mem_names isName)
      rw [checkForm, if_neg (ne_true_of_eq_false unspaced), if_pos (isName_iff.2 isName)]
  | prefixed isPrefixed =>
      obtain ⟨unspaced, noName⟩ := unspaced_of_mem_prefixedNames isPrefixed
      have noBlank := any_isBlank_eq_false_iff.2 unspaced
      obtain ⟨space, name, cut, fits⟩ := mem_prefixedNames_iff_cutAt?.1 isPrefixed
      rw [checkForm, if_neg (ne_true_of_eq_false noBlank), if_neg (mt isName_iff.1 noName), cut]
      exact if_pos (Bool.and_eq_true_iff.2 fits)
  | other unspaced noName notPrefixed =>
      have noBlank := any_isBlank_eq_false_iff.2 unspaced
      rw [checkForm, if_neg (ne_true_of_eq_false noBlank), if_neg (mt isName_iff.1 noName)]
      split
      next space name cut =>
        apply if_neg
        intro fits
        exact notPrefixed (mem_prefixedNames_iff_cutAt?.2
          ⟨space, name, cut, Bool.and_eq_true_iff.1 fits⟩)
      next => rfl

/-- Every text is of some form. -/
theorem exists_form (candidate : String) : ∃ result, Form candidate result := by
  by_cases unspaced : ∀ character ∈ candidate.toList, Text.isBlank character = false
  · by_cases isName : candidate.toList ∈ names
    · exact ⟨_, .name isName⟩
    · by_cases isPrefixed : candidate.toList ∈ prefixedNames
      · exact ⟨_, .prefixed isPrefixed⟩
      · exact ⟨_, .other unspaced isName isPrefixed⟩
  · rw [← any_isBlank_eq_false_iff, Bool.not_eq_false, List.any_eq_true] at unspaced
    exact ⟨_, .spaced unspaced⟩

/-- The check says about a text what is so, and nothing else. -/
theorem checkForm_eq_iff {result : Except Flaw Unit} :
    checkForm candidate = result ↔ Form candidate result := by
  constructor
  · obtain ⟨other, form⟩ := exists_form candidate
    rw [form.checkForm_eq]
    rintro rfl
    exact form
  · exact Form.checkForm_eq

/-- Names are accepted, and nothing else. -/
theorem checkForm_eq_ok_iff : checkForm candidate = .ok () ↔ candidate.toList ∈ names := by
  rw [checkForm_eq_iff]
  constructor
  · rintro ⟨⟩
    assumption
  · exact Form.name

/-- Only the first colon separates, and an underscore heads a name but no namespace. -/
example : checkForm "a:b:c" = .error .invalidName ∧ checkForm "_a" = .ok () ∧
    checkForm "_a:b" = .error .invalidName := by
  decide

end ElementId

/-! ## Ids for the elements of a process -/

namespace Graph

/-- The candidate is no id for the element that is to be renamed, if there is one: it is empty, or
another element has it. -/
def Clashes (graph : Graph) (candidate : String) (renamed : Option ElementId) : Prop :=
  candidate = "" ∨ ∃ element ∈ graph.elements, element.id = ⟨candidate⟩ ∧
    renamed.bind graph.element? ≠ some element

variable {graph : Graph} {candidate : String}

/-- An id is taken by another element exactly if it is taken and not kept. -/
theorem clashes_iff (distinct : graph.ids.Nodup) {renamed : Option ElementId} :
    graph.Clashes candidate renamed ↔ candidate = "" ∨
      (graph.contains ⟨candidate⟩ = true ∧ renamed ≠ some ⟨candidate⟩) := by
  rw [Clashes, contains_iff, mem_ids]
  apply or_congr_right
  constructor
  · rintro ⟨element, member, named, isOther⟩
    refine ⟨⟨element, member, named⟩, ?_⟩
    rintro rfl
    rw [← named, Option.bind_some, element?_of_mem distinct member] at isOther
    exact isOther rfl
  · rintro ⟨⟨element, member, named⟩, notKept⟩
    refine ⟨element, member, named, fun same => ?_⟩
    obtain ⟨kept, rfl, found⟩ := Option.bind_eq_some_iff.1 same
    rw [← (mem_of_element? found).2, named] at notKept
    exact notKept rfl

/-- A candidate that clashes is refused for that. -/
theorem checkId_of_clashes (distinct : graph.ids.Nodup) {renamed : Option ElementId}
    (clashes : graph.Clashes candidate renamed) :
    graph.checkId candidate renamed = .error .notUnique := by
  rw [checkId]
  obtain rfl | ⟨taken, notKept⟩ := (clashes_iff distinct).1 clashes
  · rfl
  · split
    next => rfl
    next => exact if_pos (by simp [taken, notKept])

/-- A candidate that does not clash is judged by its form. -/
theorem checkId_of_not_clashes (distinct : graph.ids.Nodup) {renamed : Option ElementId}
    (noClash : ¬ graph.Clashes candidate renamed) :
    graph.checkId candidate renamed = ElementId.checkForm candidate := by
  rw [clashes_iff distinct, not_or] at noClash
  obtain ⟨filled, free⟩ := noClash
  rw [checkId, if_neg (by simpa using filled), if_neg (by simpa using free)]

/-- No form is called a clash, so a clash is found exactly where there is one. -/
theorem checkId_eq_notUnique_iff (distinct : graph.ids.Nodup) {renamed : Option ElementId} :
    graph.checkId candidate renamed = .error .notUnique ↔ graph.Clashes candidate renamed := by
  constructor
  · intro refused
    by_contra noClash
    rw [checkId_of_not_clashes distinct noClash, ElementId.checkForm_eq_iff] at refused
    cases refused
  · exact checkId_of_clashes distinct

/-- An id that is accepted for a new element makes every container a vacant place for it. -/
theorem vacant_of_checkId (distinct : graph.ids.Nodup)
    (accepted : graph.checkId candidate none = .ok ()) {container : Node}
    (member : container ∈ graph.nodes) (isContainer : container.kind.isContainer = true) :
    graph.Vacant container.id ⟨candidate⟩ where
  free := by
    intro taken
    obtain ⟨element, isElement, named⟩ := mem_ids.1 taken
    have clashes : graph.Clashes candidate none := .inr ⟨element, isElement, named, nofun⟩
    rw [checkId_of_clashes distinct clashes] at accepted
    cases accepted
  container := ⟨container, member, rfl, isContainer⟩

/-- An element of this id can be added to the container, be it a node or a flow between any two
nodes, and is found in the process then. -/
structure Admits (graph : Graph) (container id : ElementId) : Prop where
  node : ∀ node : Node, node.id = id → ∃ added, graph.addNode container node = .ok added ∧
    added.node? id = some { node with parent := some container }
  flow : ∀ source ∈ graph.nodes, ∀ target ∈ graph.nodes, ∀ flow : SequenceFlow, flow.id = id →
    flow.source = source.id → flow.target = target.id →
      ∃ added, graph.addFlow container flow = .ok added ∧
        added.flow? id = some { flow with parent := some container }

/-- Elements can be added to vacant places. -/
theorem WellFormed.admits_of_vacant (wellFormed : graph.WellFormed) {container id : ElementId}
    (vacant : graph.Vacant container id) : graph.Admits container id where
  node := by
    rintro node rfl
    refine ⟨_, wellFormed.addNode_eq_hold vacant, node?_of_element? ?_⟩
    let added : Element := .node { node with parent := some container }
    have free : added.id ∉ graph.ids := vacant.free
    have found : (graph.hold container added).element? added.id = _ := element?_hold free added.id
    rw [if_pos rfl] at found
    exact found
  flow := by
    rintro source isSource target isTarget flow rfl fromSource toTarget
    have sourceThere := node?_isSome_iff.2 ⟨source, isSource, fromSource.symm⟩
    have targetThere := node?_isSome_iff.2 ⟨target, isTarget, toTarget.symm⟩
    obtain ⟨added, done, adds⟩ := wellFormed.addFlow_of_vacant vacant sourceThere targetThere
    exact ⟨added, done, flow?_of_face? adds.face?_self⟩

end Graph

/-- Each text has one form, and that is what the check of the form answers. In a reached process a
text is refused as not unique exactly if it is empty or another element has it, and is judged by
its form otherwise. Where it is accepted for a new element, nodes and flows of this id can be added
to every container. -/
theorem Reached.checkId_exact {policy : Policy} {root : ElementId} {ledger : Ledger}
    (reached : Reached policy root ledger) (candidate : String) :
    (∀ result, ElementId.checkForm candidate = result ↔ ElementId.Form candidate result) ∧
    (∀ renamed, ledger.graph.checkId candidate renamed = .error .notUnique ↔
      ledger.graph.Clashes candidate renamed) ∧
    (∀ renamed, ¬ ledger.graph.Clashes candidate renamed →
      ledger.graph.checkId candidate renamed = ElementId.checkForm candidate) ∧
    (ledger.graph.checkId candidate none = .ok () → ∀ container ∈ ledger.graph.nodes,
      container.kind.isContainer = true → ledger.graph.Admits container.id ⟨candidate⟩) := by
  have wellFormed := reached.sound.wellFormed
  have distinct := wellFormed.distinct
  refine ⟨fun _ => ElementId.checkForm_eq_iff, fun _ => Graph.checkId_eq_notUnique_iff distinct,
    fun _ => Graph.checkId_of_not_clashes distinct, ?_⟩
  intro accepted container member isContainer
  exact wellFormed.admits_of_vacant
    (Graph.vacant_of_checkId distinct accepted member isContainer)

/-- Between two nodes a flow may get a new name and not the id of a node, a node may keep its id,
and a name behind a namespace is refused for it. -/
theorem checkId_of_two_nodes : ∃ ledger, Reached ⟨false, false⟩ ⟨"P"⟩ ledger ∧
    (∃ added, ledger.graph.addFlow ⟨"P"⟩ (.between ⟨"Flow-1.a"⟩ ⟨"S"⟩ ⟨"T"⟩) = .ok added ∧
      (added.flow? ⟨"Flow-1.a"⟩).isSome = true) ∧
    ledger.graph.Clashes "T" none ∧ ¬ ledger.graph.Clashes "T" (some ⟨"T"⟩) ∧
    ElementId.Form "bpmn:T" (.error .prefixed) := by
  let built := ((Ledger.new ⟨"P"⟩).record (.addNode ⟨"P"⟩ (.alone ⟨"S"⟩ (.event .start)))).record
    (.addNode ⟨"P"⟩ (.alone ⟨"T"⟩ (.task .user)))
  have isBuilt : Reached ⟨false, false⟩ ⟨"P"⟩ built :=
    (Reached.new.addAlone _ _ _).addAlone _ _ _
  refine ⟨built, isBuilt, ?_, ?_, ?_, ?_⟩
  · obtain ⟨-, -, -, admits⟩ := isBuilt.checkId_exact "Flow-1.a"
    obtain ⟨root, isRoot, named, kind, -⟩ := isBuilt.sound.wellFormed.rooted
    obtain ⟨source, isSource, sourceId⟩ := Graph.node?_isSome_iff.1
      (by decide : (built.graph.node? ⟨"S"⟩).isSome = true)
    obtain ⟨target, isTarget, targetId⟩ := Graph.node?_isSome_iff.1
      (by decide : (built.graph.node? ⟨"T"⟩).isSome = true)
    have holds := admits (by decide) root isRoot (by rw [kind]; rfl)
    obtain ⟨added, done, found⟩ := holds.flow source isSource target isTarget
      (.between ⟨"Flow-1.a"⟩ ⟨"S"⟩ ⟨"T"⟩) rfl sourceId.symm targetId.symm
    have isParent : root.id = ⟨"P"⟩ := named
    rw [isParent] at done
    exact ⟨added, done, Option.isSome_of_eq_some found⟩
  · exact ((isBuilt.checkId_exact "T").2.1 none).1 (by decide)
  · intro clashes
    have refused := ((isBuilt.checkId_exact "T").2.1 (some ⟨"T"⟩)).2 clashes
    have accepted : built.graph.checkId "T" (some ⟨"T"⟩) = .ok () := by decide
    cases accepted.symm.trans refused
  · exact ((isBuilt.checkId_exact "bpmn:T").1 _).1 (by decide)

end BusinessProcess
