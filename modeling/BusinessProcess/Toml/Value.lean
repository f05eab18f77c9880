import BusinessProcess.Toml.Floating
import BusinessProcess.Toml.Moment

/-!
# Values of configuration documents

A document in TOML is a table of values under keys. Tables and arrays remember how they were
written, because that decides what a later line of the document may still add to them.
-/

namespace BusinessProcess.Toml

/-- How a table came to be. -/
inductive TableOrigin where
  /-- Written out between braces. It is complete. -/
  | inline
  /-- Named by a header. -/
  | header
  /-- Passed through by a longer header. -/
  | implied
  /-- Passed through by a dotted key. No header names it any more. -/
  | dotted
deriving DecidableEq, Repr

/-- How an array came to be. -/
inductive ArrayOrigin where
  /-- Written out between brackets. It is complete. -/
  | literal
  /-- Made of tables that were named by headers in double brackets. -/
  | header
deriving DecidableEq, Repr

/-- A value of a document. -/
inductive Value where
  | text (content : String)
  /-- An integer. Its numeral may stand for no number, which is a fault only of those who ask. -/
  | integer (number : Option Int)
  | floating (number : Floating)
  | boolean (truth : Bool)
  | moment (moment : Moment)
  | array (origin : ArrayOrigin) (items : List Value)
  | table (origin : TableOrigin) (entries : List (String × Value))

/-- The keys of a table with their values, oldest first. -/
abbrev Table := List (String × Value)

namespace Table

/-- The table with `value` in place of the value under `key`. -/
def replace (table : Table) (key : String) (value : Value) : Table :=
  table.map fun entry => if entry.1 = key then (key, value) else entry

/-- The table with a new last key. -/
def add (table : Table) (key : String) (value : Value) : Table :=
  table ++ [(key, value)]

/-- Adds a value under a dotted key; the last part of the key has to be new. Every part before it
names a table that is new, comes from dotted keys, or was merely implied and from now on comes
from dotted keys. Of an array of tables the latest is meant, but nothing is added to that table
itself. -/
def insertDotted (value : Value) : (path : List String) → Table → Option Table
  | [], _ => none
  | [key], table => if (table.lookup key).isSome then none else some (table.add key value)
  | key :: next :: rest, table =>
      match table.lookup key with
      | none => do
          let inner ← insertDotted value (next :: rest) []
          some (table.add key (.table .dotted inner))
      | some (.table .dotted inner) | some (.table .implied inner) => do
          let inner ← insertDotted value (next :: rest) inner
          some (table.replace key (.table .dotted inner))
      | some (.array .header items) =>
          match rest, items.getLast? with
          | _ :: _, some (.table origin inner) => do
              let inner ← insertDotted value (next :: rest) inner
              some (table.replace key
                (.array .header (items.dropLast ++ [.table origin inner])))
          | _, _ => none
      | some _ => none

/-- The table of an inline table with the given keys and values. -/
def ofInline (entries : List (List String × Value)) : Option Table :=
  entries.foldlM (fun table entry => insertDotted entry.2 entry.1 table) []

/-- Changes the table that a header path leads to. Missing tables on the way are implied, of an
array of tables the latest is meant, and nothing leads through other values. -/
def changeAt (change : Table → Option Table) : (path : List String) → Table → Option Table
  | [], table => change table
  | key :: rest, table =>
      match table.lookup key with
      | none => do
          let inner ← changeAt change rest []
          some (table.add key (.table .implied inner))
      | some (.table .inline _) => none
      | some (.table origin inner) => do
          let inner ← changeAt change rest inner
          some (table.replace key (.table origin inner))
      | some (.array .header items) =>
          match items.getLast? with
          | some (.table origin inner) => do
              let inner ← changeAt change rest inner
              some (table.replace key
                (.array .header (items.dropLast ++ [.table origin inner])))
          | _ => none
      | some _ => none

/-- Names a table by a header. It has to be new or merely implied. -/
def openTable (key : String) (table : Table) : Option Table :=
  match table.lookup key with
  | none => some (table.add key (.table .header []))
  | some (.table .implied inner) => some (table.replace key (.table .header inner))
  | some _ => none

/-- Adds a table to an array of tables by a header in double brackets. -/
def openArrayTable (key : String) (table : Table) : Option Table :=
  match table.lookup key with
  | none => some (table.add key (.array .header [.table .header []]))
  | some (.array .header items) =>
      some (table.replace key (.array .header (items ++ [.table .header []])))
  | some _ => none

end Table

end BusinessProcess.Toml
