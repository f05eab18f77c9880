import BusinessProcess.Toml.Reader

/-!
# Quoted texts

Texts stand in double quotes, where a backslash introduces an escape, or in single quotes, where
every character stands for itself. Tripled quotes open texts of several lines; a line end right
behind them does not belong to the text, and up to two quotes right before the closing ones do.
-/

namespace BusinessProcess.Toml.Quoted

open Reader

/-- The value of a hexadecimal digit. -/
def hexValue? (digit : Char) : Option Nat :=
  if digit.isDigit then some (digit.toNat - '0'.toNat)
  else if 'a' ≤ digit ∧ digit ≤ 'f' then some (digit.toNat - 'a'.toNat + 10)
  else if 'A' ≤ digit ∧ digit ≤ 'F' then some (digit.toNat - 'A'.toNat + 10)
  else none

/-- Takes `width` hexadecimal digits and adds them to the number read so far. -/
def hexNumber : (width : Nat) → (number : Nat) → Reader Nat
  | 0, number => pure number
  | width + 1, number => do
      match hexValue? (← next) with
      | some digit => hexNumber width (number * 16 + digit)
      | none => refuse

/-- Takes the number of a character in `width` hexadecimal digits. -/
def numberedCharacter (width : Nat) : Reader Char := do
  let point ← hexNumber width 0
  if point.isValidChar then return Char.ofNat point else refuse

/-- Takes the rest of an escape, behind the backslash. -/
def escape : Reader Char := do
  match ← next with
  | 'b' => return '\x08'
  | 't' => return '\t'
  | 'n' => return '\n'
  | 'f' => return '\x0c'
  | 'r' => return '\r'
  | 'e' => return '\x1b'
  | '"' => return '"'
  | '\\' => return '\\'
  | 'x' => numberedCharacter 2
  | 'u' => numberedCharacter 4
  | 'U' => numberedCharacter 8
  | _ => refuse

/-- Takes a text in double quotes, behind the opening quote. -/
def basicLine : (steps : Nat) → Reader (List Char)
  | 0 => refuse
  | steps + 1 => do
      match ← next with
      | '"' => return []
      | '\\' =>
          let character ← escape
          return character :: (← basicLine steps)
      | character =>
          if isPrintable character then return character :: (← basicLine steps) else refuse

/-- Takes a text in single quotes, behind the opening quote. -/
def literalLine : (steps : Nat) → Reader (List Char)
  | 0 => refuse
  | steps + 1 => do
      match ← next with
      | '\'' => return []
      | character =>
          if isPrintable character then return character :: (← literalLine steps) else refuse

/-- Takes the gap and the line end behind a backslash that joins lines, and all gaps and line
ends that follow. -/
def joint (steps : Nat) : Reader Unit := do
  gap
  lineEnd
  blankLines steps
where
  /-- Takes gaps and line ends in at most `steps` steps. -/
  blankLines : (steps : Nat) → Reader Unit
    | 0 => pure ()
    | steps + 1 => do
        gap
        match ← peek with
        | some '\n' | some '\r' =>
            lineEnd
            blankLines steps
        | _ => return

/-- Whether a backslash is followed by nothing but a gap on its line. -/
def isJoint : Reader Bool :=
  fun input =>
    let behind := input.dropWhile isGap
    some (behind.head? = some '\n' || behind.head? = some '\r', input)

/-- Takes one character of a text of several lines; a return has to be followed by a line feed. -/
def blockCharacter : Reader Char := do
  let character ← next
  if character = '\n' then return character
  if character = '\r' then
    if (← peek) = some '\n' then return character else refuse
  if isPrintable character then return character else refuse

/-- Takes the text of several lines up to three closing quotes, the last of a run. Escapes are
read where `escapes` says so. -/
def block (quote : Char) (escapes : Bool) : (steps : Nat) → Reader (List Char)
  | 0 => refuse
  | steps + 1 => do
      match ← peek with
      | none => refuse
      | some head =>
          if head = quote then
            let quotes ← run (· = quote)
            if quotes.length < 3 then return quotes ++ (← block quote escapes steps)
            else if quotes.length ≤ 5 then return quotes.drop 3
            else refuse
          else if escapes && head = '\\' then
            exactly '\\'
            if ← isJoint then
              joint steps
              block quote escapes steps
            else
              let character ← escape
              return character :: (← block quote escapes steps)
          else
            let character ← blockCharacter
            return character :: (← block quote escapes steps)

/-- Takes a text of several lines, behind the opening quotes and the line end that may follow
them. -/
def blockBody (quote : Char) (escapes : Bool) : Reader (List Char) := do
  match ← peek with
  | some '\n' | some '\r' => lineEnd
  | _ => pure ()
  fun input => block quote escapes (input.length + 1) input

/-- Takes a quoted text of one line. -/
def line : Reader String := do
  match ← next with
  | '"' => fun input => (basicLine (input.length + 1) input).map fun (text, rest) =>
      (String.ofList text, rest)
  | '\'' => fun input => (literalLine (input.length + 1) input).map fun (text, rest) =>
      (String.ofList text, rest)
  | _ => refuse

/-- Takes a quoted text of one or several lines. -/
def text : Reader String := do
  if ← optionally "\"\"\"" then return String.ofList (← blockBody '"' true)
  else if ← optionally "'''" then return String.ofList (← blockBody '\'' false)
  else line

end BusinessProcess.Toml.Quoted
