/-!
# Reading from the front of a text

A reader takes something off the front of a list of characters, or refuses. Repetitions end with
the text, whose length bounds their steps.
-/

namespace BusinessProcess.Toml

/-- Takes an `α` off the front of a list of characters, or refuses. -/
abbrev Reader (α : Type) := StateT (List Char) Option α

namespace Reader

/-- Refuses. -/
def refuse {α : Type} : Reader α :=
  fun _ => none

/-- The first character, which is left in place; nothing at the end. -/
def peek : Reader (Option Char) :=
  fun input => some (input.head?, input)

/-- Takes one character, which has to be there. -/
def next : Reader Char
  | [] => none
  | head :: rest => some (head, rest)

/-- Takes the given character. -/
def exactly (character : Char) : Reader Unit
  | [] => none
  | head :: rest => if head = character then some ((), rest) else none

/-- Takes the longest run of characters with a property. -/
def run (holds : Char → Bool) : Reader (List Char) :=
  fun input => some (input.takeWhile holds, input.dropWhile holds)

/-- Takes `text` if it stands in front and says whether it did. -/
def optionally (text : String) : Reader Bool :=
  fun input =>
    if text.toList.isPrefixOf input then some (true, input.drop text.toList.length)
    else some (false, input)

/-- Takes the end of a line; a return has to be followed by a line feed. -/
def lineEnd : Reader Unit
  | '\n' :: rest => some ((), rest)
  | '\r' :: '\n' :: rest => some ((), rest)
  | _ => none

/-- Whether a character separates parts of a line. -/
def isGap (character : Char) : Bool :=
  character = ' ' || character = '\t'

/-- Whether a character may stand in comments and in texts of one line. -/
def isPrintable (character : Char) : Bool :=
  character = '\t' || (' ' ≤ character && character != '\x7f')

/-- Takes the gap in front, if there is one. -/
def gap : Reader Unit := do
  let _ ← run isGap

/-- Takes a comment, if there is one. -/
def comment : Reader Unit := do
  if ← optionally "#" then
    let _ ← run isPrintable

/-- Takes what may stand at the end of a line, and the end of the line or of the text. -/
def restOfLine : Reader Unit := do
  gap
  comment
  match ← peek with
  | none => return
  | some _ => lineEnd

/-- Takes gaps, comments and line ends in at most `steps` steps. -/
def filling : (steps : Nat) → Reader Unit
  | 0 => pure ()
  | steps + 1 => do
      gap
      comment
      match ← peek with
      | some '\n' | some '\r' =>
          lineEnd
          filling steps
      | _ => return

/-- Takes all gaps, comments and line ends in front. -/
def allFilling : Reader Unit :=
  fun input => filling (input.length + 1) input

/-- Takes items set apart by commas up to the character `close`, in at most `steps` steps. A
final comma may follow the last item. -/
def itemsUntil {α : Type} (item : Reader α) (close : Char) : (steps : Nat) → Reader (List α)
  | 0 => refuse
  | steps + 1 => do
      allFilling
      if (← peek) = some close then
        exactly close
        return []
      let first ← item
      allFilling
      if (← peek) = some close then
        exactly close
        return [first]
      exactly ','
      return first :: (← itemsUntil item close steps)

/-- Takes all items set apart by commas up to the character `close`. -/
def items {α : Type} (item : Reader α) (close : Char) : Reader (List α) :=
  fun input => itemsUntil item close (input.length + 1) input

end Reader

end BusinessProcess.Toml
