import BusinessProcess.Configuration.Document
import BusinessProcess.Editor
import BusinessProcess.FileTree

/-!
# Finding the configuration

The configuration is read from the file asked for, else from the file of the project, else from
the file of the system, else it is the standard one. Only the file asked for has to exist; but a
file that is there and cannot be used is an error wherever it was found.
-/

namespace BusinessProcess.Configuration

/-- Where configurations are looked for. -/
structure Locations where
  /-- The files that paths lead to. -/
  files : FileTree
  /-- The path of the file of the project. -/
  projectFile : String
  /-- What is found in place of the file of the system. -/
  systemFile : FileState

/-- Whether there is something at a place. -/
def isPresent : FileState → Bool
  | .missing => false
  | _ => true

/-- The configuration in what was found at a path. -/
def read (path : String) : FileState → Except EditorError Configuration
  | .missing => .error (.configuration (.missingFile path))
  | .directory => .error .unreadable
  | .file bytes =>
      match String.fromUTF8? bytes with
      | some text => (parse text).mapError .configuration
      | none => .error .unreadable

/-- The configuration to use, given the path asked for, if there is one. -/
def load (locations : Locations) (asked : Option String) : Except EditorError Configuration :=
  match asked with
  | some path => read path (locations.files.inspect path)
  | none =>
      let project := locations.files.inspect locations.projectFile
      if isPresent project then read locations.projectFile project
      else if isPresent locations.systemFile then read "" locations.systemFile
      else .ok standard

/-! ## Which file is used -/

/-- What is loaded: what is read where it was asked for, else at the first of the usual places where
something is, whether it can be used or not. -/
inductive Loads (locations : Locations) :
    Option String → Except EditorError Configuration → Prop where
  | asked (path : String) : Loads locations (some path) (read path (locations.files.inspect path))
  | project (present : locations.files.inspect locations.projectFile ≠ .missing) :
      Loads locations none
        (read locations.projectFile (locations.files.inspect locations.projectFile))
  | system (noProject : locations.files.inspect locations.projectFile = .missing)
      (present : locations.systemFile ≠ .missing) :
      Loads locations none (read "" locations.systemFile)
  | standard (noProject : locations.files.inspect locations.projectFile = .missing)
      (noSystem : locations.systemFile = .missing) : Loads locations none (.ok standard)

theorem isPresent_iff {state : FileState} : isPresent state = true ↔ state ≠ .missing := by
  cases state <;> simp [isPresent]

theorem not_isPresent_iff {state : FileState} : ¬ isPresent state = true ↔ state = .missing := by
  cases state <;> simp [isPresent]

variable {locations : Locations} {asked : Option String}

/-- The search goes through the places in their order and uses the first where something is. -/
theorem load_eq_iff {result : Except EditorError Configuration} :
    load locations asked = result ↔ Loads locations asked result := by
  constructor
  · rintro rfl
    cases asked with
    | some path => exact .asked path
    | none =>
        simp only [load]
        split
        next present => exact .project (isPresent_iff.1 present)
        next noProject =>
          rw [not_isPresent_iff] at noProject
          split
          next present => exact .system noProject (isPresent_iff.1 present)
          next noSystem => exact .standard noProject (not_isPresent_iff.1 noSystem)
  · intro loads
    cases loads with
    | asked path => rfl
    | project present => simp only [load, isPresent_iff.2 present, if_true]
    | system noProject present =>
        simp only [load, noProject, isPresent_iff.2 present, if_true]
        rfl
    | standard noProject noSystem =>
        simp only [load, noProject, noSystem]
        rfl

/-- Reading misses a file exactly if there is nothing at its path. -/
theorem read_eq_missingFile_iff {path missed : String} {state : FileState} :
    read path state = .error (.configuration (.missingFile missed)) ↔
      state = .missing ∧ path = missed := by
  cases state with
  | missing => simp [read]
  | directory => simp [read]
  | file bytes =>
      simp only [read, reduceCtorEq, false_and, iff_false]
      intro missing
      split at missing
      next text _ =>
        cases parsed : parse text with
        | ok configuration =>
            rw [parsed] at missing
            cases missing
        | error error =>
            rw [parsed, eq_unparsable_of_parse parsed] at missing
            cases missing
      next => cases missing

/-- A file is missed exactly if it was asked for and is not there. -/
theorem load_eq_missingFile_iff {path : String} :
    load locations asked = .error (.configuration (.missingFile path)) ↔
      asked = some path ∧ locations.files.inspect path = .missing := by
  generalize found : load locations asked = result
  cases load_eq_iff.1 found with
  | asked other =>
      rw [read_eq_missingFile_iff, Option.some.injEq, and_comm]
      exact and_congr_right fun same => by rw [same]
  | project present => simp [read_eq_missingFile_iff, present]
  | system _ present => simp [read_eq_missingFile_iff, present]
  | standard => simp

end BusinessProcess.Configuration
