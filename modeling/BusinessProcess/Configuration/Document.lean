import BusinessProcess.Configuration.Basic
import BusinessProcess.Toml.Document

/-!
# Configurations in documents

A configuration document has a section `lint` with the table `rules` of level overrides and a
section `timers` with the text `delegate_expression`. What is missing takes its standard value,
and what is unknown is passed over, provided that its numbers can be represented. Overrides apply
in the order of their names.

A section may be written as an array, which holds the settings by position. A moment in place of
a table counts as a table with one reserved key.
-/

namespace BusinessProcess.Configuration

open Toml

/-- The bounds of the integers that can be represented: signed or unsigned words of 128 bits. -/
def isWideInteger (number : Int) : Bool :=
  -Int.pow 2 127 ≤ number && number < Int.pow 2 128

mutual

/-- Whether all numbers in a value can be represented. -/
def isUsable : Value → Bool
  | .integer number => number.any isWideInteger
  | .floating number => number.isDouble
  | .array _ items => areUsable items
  | .table _ entries => areUsableEntries entries
  | _ => true

/-- Whether all numbers in several values can be represented. -/
def areUsable : List Value → Bool
  | [] => true
  | item :: rest => isUsable item && areUsable rest

/-- Whether all numbers in the values of several keys can be represented. -/
def areUsableEntries : List (String × Value) → Bool
  | [] => true
  | (_, value) :: rest => isUsable value && areUsableEntries rest

end

/-- Whether all keys but the known ones have usable values. -/
def othersUsable (known : List String) (table : Table) : Bool :=
  areUsableEntries (table.filter fun entry => !known.contains entry.1)

/-- The only setting of a section, if it is there; nothing if the value is no section. -/
def setting? (key : String) : Value → Option (Option Value)
  | .table _ entries =>
      if othersUsable [key] entries then some (entries.lookup key) else none
  | .array _ items => some items.head?
  | .moment _ => some none
  | _ => none

/-- The text of a value that is one. -/
def text? : Value → Option String
  | .text content => some content
  | _ => none

/-- The key under which a moment counts as the entry of a table. -/
def momentKey : String :=
  "$__toml_private_datetime"

/-- The level overrides in a value, in the order of their names. -/
def overrides? : Value → Option (List (String × String))
  | .table _ entries => do
      let pairs ← entries.mapM fun entry => (text? entry.2).map (entry.1, ·)
      some (pairs.mergeSort fun first second => first.1 ≤ second.1)
  | .moment moment => some [(momentKey, moment.display)]
  | _ => none

/-- The setting `key` of the section `name` of a document as `read` takes it, or `absent` if
there is no such section or setting. -/
def settingOf {α : Type} (table : Table) (name key : String) (absent : α)
    (read : Value → Option α) : Option α :=
  match table.lookup name with
  | none => some absent
  | some value => do
      match ← setting? key value with
      | none => some absent
      | some value => read value

/-- The configuration in the table of a document. -/
def ofTable? (table : Table) : Option Configuration := do
  if !othersUsable ["lint", "timers"] table then none
  let rules ← settingOf table "lint" "rules" [] overrides?
  let delegate ← settingOf table "timers" "delegate_expression" standard.delegate text?
  some { rules := .ofList rules, delegate := delegate }

/-- The configuration in the text of a document. -/
def parse (text : String) : Except ConfigurationError Configuration :=
  match (Toml.parse? text).bind ofTable? with
  | some configuration => .ok configuration
  | none => .error .unparsable

/-- A text is refused for one reason only. -/
theorem eq_unparsable_of_parse {text : String} {error : ConfigurationError}
    (refused : parse text = .error error) : error = .unparsable := by
  unfold parse at refused
  split at refused
  next => cases refused
  next => exact (Except.error.inj refused).symm

end BusinessProcess.Configuration
