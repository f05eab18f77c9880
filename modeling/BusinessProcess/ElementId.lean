import BusinessProcess.Text.Blank
import BusinessProcess.Text.Split

/-!
# Element ids

Every element of a process, node or flow, carries an id. Elements made for a time limit take
their ids from the task they serve, by adding an ending. A proposed id is checked for white
space first and then for its form: a letter or underscore followed by letters, digits,
underscores, dots and hyphens. A well-formed id behind a namespace is refused for the namespace.
-/

namespace BusinessProcess

/-- The name by which elements refer to each other. -/
structure ElementId where
  /-- The id as written. -/
  text : String
deriving DecidableEq, Repr, Inhabited

namespace ElementId

/-- The id with `ending` added. -/
def withEnding (id : ElementId) (ending : String) : ElementId :=
  ⟨id.text ++ ending⟩

/-- Whether the id ends with `ending`. -/
def endsWith (id : ElementId) (ending : String) : Bool :=
  Text.endsWith id.text ending

/-- What `withEnding` added is found at the end. -/
theorem endsWith_withEnding (id : ElementId) (ending : String) :
    (id.withEnding ending).endsWith ending = true :=
  Text.endsWith_iff.2 ⟨id.text, rfl⟩

/-- Ids that agree after the same addition agreed before. -/
theorem withEnding_inj {first second : ElementId} {ending : String} :
    first.withEnding ending = second.withEnding ending ↔ first = second := by
  cases first
  cases second
  simp [withEnding, ← String.toList_inj]

/-- Why a proposed id is refused. -/
inductive Flaw where
  /-- The id is empty or taken by another element. -/
  | notUnique
  /-- The id contains white space. -/
  | containsSpace
  /-- The id is well formed but stands behind a namespace. -/
  | prefixed
  /-- The id is of no known form. -/
  | invalidName
deriving DecidableEq, Repr

/-- The wording of a refusal. -/
def Flaw.message : Flaw → String
  | .notUnique => "Element must have an unique id."
  | .containsSpace => "Id must not contain spaces."
  | .prefixed => "Id must not contain prefix."
  | .invalidName => "Id must be a valid QName."

/-- A character allowed inside an id. -/
def isNameCharacter (character : Char) : Bool :=
  character.isAlphanum || character = '_' || character = '-' || character = '.'

/-- A non-empty run of name characters that starts with a letter or an underscore. -/
def isName : List Char → Bool
  | [] => false
  | first :: rest => (first.isAlpha || first = '_') && rest.all isNameCharacter

/-- A non-empty run of name characters that starts with a letter. -/
def isNamespace : List Char → Bool
  | [] => false
  | first :: rest => first.isAlpha && rest.all isNameCharacter

/-- Checks the form of a proposed id. -/
def checkForm (candidate : String) : Except Flaw Unit :=
  if candidate.toList.any Text.isBlank then .error .containsSpace
  else if isName candidate.toList then .ok ()
  else
    match Text.cutAt? ':' candidate.toList with
    | some (space, name) =>
        if isNamespace space && isName name then .error .prefixed else .error .invalidName
    | none => .error .invalidName

end ElementId

end BusinessProcess
