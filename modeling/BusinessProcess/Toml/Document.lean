import BusinessProcess.Toml.Scalar

/-!
# Documents

A document consists of lines that name tables and of lines that put values under keys of the
table named last. Reading goes in two steps: from characters to statements, and from statements
to the table of the whole document.
-/

namespace BusinessProcess.Toml

open Reader

/-- A line of a document. -/
inductive Statement where
  /-- Puts a value under a dotted key. -/
  | assign (path : List String) (value : Value)
  /-- Names a table. -/
  | header (path : List String)
  /-- Adds a table to an array of tables. -/
  | arrayHeader (path : List String)

/-- Whether a character may stand in a key without quotes. -/
def isBareKeyPart (character : Char) : Bool :=
  character.isAlphanum || character = '_' || character = '-'

/-- Takes one part of a key. -/
def keyPart : Reader String := do
  match ← peek with
  | some '"' | some '\'' => Quoted.line
  | _ =>
      let characters ← run isBareKeyPart
      if characters.isEmpty then refuse else return String.ofList characters

/-- Takes a dotted key of at most `steps` parts, and the gaps around its parts. -/
def keyParts : (steps : Nat) → Reader (List String)
  | 0 => refuse
  | steps + 1 => do
      gap
      let part ← keyPart
      gap
      if ← optionally "." then return part :: (← keyParts steps) else return [part]

/-- How many parts a dotted key may have. -/
def keyLimit : Nat :=
  80

/-- Takes a dotted key and the gaps around its parts. -/
def key : Reader (List String) :=
  keyParts keyLimit

/-- Takes a key and its value. What `space` takes may stand around the equals sign. -/
def assignment (space : Reader Unit) (value : Reader Value) : Reader (List String × Value) := do
  let path ← key
  space
  exactly '='
  space
  return (path, ← value)

/-- Takes a value in which arrays and inline tables are nested at most `depth` deep. Between
braces as between brackets, lines may end and comments may stand everywhere but inside keys. -/
def value : (depth : Nat) → Reader Value
  | 0 => do
      match ← peek with
      | some '"' | some '\'' => return .text (← Quoted.text)
      | some '[' | some '\x7b' => refuse
      | _ => Scalar.scalar
  | depth + 1 => do
      match ← peek with
      | some '"' | some '\'' => return .text (← Quoted.text)
      | some '[' =>
          exactly '['
          return .array .literal (← items (value depth) ']')
      | some '\x7b' =>
          exactly '\x7b'
          match Table.ofInline (← items (assignment allFilling (value depth)) '\x7d') with
          | some table => return .table .inline table
          | none => refuse
      | _ => Scalar.scalar

/-- How deep arrays and inline tables may be nested. -/
def depthLimit : Nat :=
  80

/-- Takes a statement without the rest of its line. -/
def statement : Reader Statement := do
  if ← optionally "[[" then
    let path ← key
    exactly ']'
    exactly ']'
    return .arrayHeader path
  else if ← optionally "[" then
    let path ← key
    exactly ']'
    return .header path
  else
    let (path, value) ← assignment gap (value depthLimit)
    return .assign path value

/-- Takes statements, each with its line, up to the end of the text. -/
def statements : (steps : Nat) → Reader (List Statement)
  | 0 => refuse
  | steps + 1 => do
      allFilling
      match ← peek with
      | none => return []
      | some _ =>
          let first ← statement
          restOfLine
          return first :: (← statements steps)

/-- A table in the making: all of it so far, and the path of the table named last. -/
structure Draft where
  table : Table
  current : List String

/-- The draft with a table or an array of tables opened by a header. -/
def Draft.openHeader (draft : Draft) (path : List String)
    (openKey : String → Table → Option Table) : Option Draft := do
  let last ← path.getLast?
  let table ← draft.table.changeAt (openKey last) path.dropLast
  some { table := table, current := path }

/-- The draft after a statement, unless the statement contradicts an earlier one. -/
def Draft.apply (draft : Draft) : Statement → Option Draft
  | .assign path value => do
      let table ← draft.table.changeAt (Table.insertDotted value path) draft.current
      some { draft with table := table }
  | .header path => draft.openHeader path Table.openTable
  | .arrayHeader path => draft.openHeader path Table.openArrayTable

/-- The text without the byte order mark in front. -/
def dropMark : List Char → List Char
  | '\uFEFF' :: rest => rest
  | characters => characters

/-- Reads a whole document. -/
def parse? (text : String) : Option Table := do
  let characters := dropMark text.toList
  let (statements, _) ← statements (characters.length + 1) characters
  let draft ← statements.foldlM Draft.apply ⟨[], []⟩
  some draft.table

end BusinessProcess.Toml
