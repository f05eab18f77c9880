/-!
# Trees of files

A tree of files as seen from one of its directories, and what a path written from there leads to.
Only directories lead on: nothing lies behind a file, not even the file itself.
-/

namespace BusinessProcess

/-- What is found at a place. -/
inductive FileState where
  | missing
  | directory
  | file (bytes : ByteArray)

/-- The directories and files below a directory, by the names on the way to them; the latest
entry for a place counts. -/
structure FileTree where
  entries : List (List String × FileState)

namespace FileTree

/-- A place to which a path leads. -/
inductive Place where
  /-- Below the directory at which paths start, or that directory. -/
  | inside (names : List String)
  /-- Above the directory at which paths start. -/
  | above

/-- The parts of a path between its slashes. -/
def parts (path : String) : List String :=
  (split path.toList).map String.ofList
where
  /-- The runs between the slashes of a list of characters. -/
  split : List Char → List (List Char)
    | [] => [[]]
    | '/' :: rest => [] :: split rest
    | head :: rest =>
        match split rest with
        | [] => [[head]]
        | first :: others => (head :: first) :: others

/-- Whether a part of a path stays where it is. -/
def isIdle (part : String) : Bool :=
  part = "" || part = "."

/-- The tree with the given contents at the given paths. -/
def ofFiles (files : List (String × FileState)) : FileTree :=
  ⟨files.map fun file => ((parts file.1).filter (!isIdle ·), file.2)⟩

/-- What is found below the starting directory. -/
def stateOf (tree : FileTree) (names : List String) : FileState :=
  match tree.entries.reverse.find? fun entry => entry.1 = names with
  | some entry => entry.2
  | none =>
      if names = [] || tree.entries.any fun entry => names.isPrefixOf entry.1 then .directory
      else .missing

/-- What is found at a place. All above is directories. -/
def stateAt (tree : FileTree) : Place → FileState
  | .inside names => tree.stateOf names
  | .above => .directory

/-- The place that one part of a path leads to from a directory. -/
def Place.step (part : String) : Place → Option Place
  | .above => if isIdle part || part = ".." then some .above else none
  | .inside names =>
      if isIdle part then some (.inside names)
      else if part = ".." then
        if names = [] then some .above else some (.inside names.dropLast)
      else some (.inside (names ++ [part]))

/-- What is found by following the parts of a path from a place. -/
def follow (tree : FileTree) (place : Place) : List String → FileState
  | [] => tree.stateAt place
  | part :: rest =>
      match tree.stateAt place, place.step part with
      | .directory, some place => tree.follow place rest
      | _, _ => .missing

/-- What a path leads to. Nothing is known about paths from the root of all files, and the empty
path leads nowhere. -/
def inspect (tree : FileTree) (path : String) : FileState :=
  if path.isEmpty || path.toList.head? = some '/' then .missing
  else tree.follow (.inside []) (parts path)

end FileTree

end BusinessProcess
