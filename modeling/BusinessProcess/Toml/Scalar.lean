import BusinessProcess.Toml.Quoted
import BusinessProcess.Toml.Value

/-!
# Unquoted values

Truth values, numbers and moments are written as words without quotes. What a word is meant to be
shows in its first characters, and each kind has its own rules from there: a moment has to be one,
a floating-point number is given by its whole form, and an integer only by where its underscores
stand. Whether its digits are digits of its base is found out when the integer is looked at.
-/

namespace BusinessProcess.Toml.Scalar

open Reader

/-- Whether a character may stand in a word. -/
def isWordPart (character : Char) : Bool :=
  !(isGap character || character = '\n' || character = '\r' || character = '#'
    || character = '=' || character = ',' || character = '[' || character = ']'
    || character = '\x7b' || character = '\x7d')

/-- Whether somewhere in a word a gap is followed by a quote. -/
def hasQuoteBehindGap : List Char → Bool
  | first :: second :: rest =>
      (isGap first && (second = '"' || second = '\'')) || hasQuoteBehindGap (second :: rest)
  | _ => false

/-- Takes a word, and the gap behind it. A gap with more of the word behind it belongs to the
word, as between a date and a time; a quoted text never continues a word. -/
def word : Reader (List Char) := do
  let characters ← run fun character => isWordPart character || isGap character
  if hasQuoteBehindGap characters then refuse
  return (characters.reverse.dropWhile isGap).reverse

/-- A word apart from its sign. -/
structure Numeral where
  isNegative : Bool
  /-- What follows the sign. -/
  body : List Char

/-- Takes a sign off a word. -/
def Numeral.ofWord : List Char → Numeral
  | '+' :: body => ⟨false, body⟩
  | '-' :: body => ⟨true, body⟩
  | body => ⟨false, body⟩

/-- Whether a character is a hexadecimal digit. -/
def isHexDigit (character : Char) : Bool :=
  (Quoted.hexValue? character).isSome

/-- Whether a character is a digit in the given base. -/
def isDigitIn (base : Nat) (digit : Char) : Bool :=
  (Quoted.hexValue? digit).any (· < base)

/-- Whether every underscore stands between two digits. `behindDigit` says whether a digit stands
in front of the characters. -/
def isSeparated (isDigit : Char → Bool) : (behindDigit : Bool) → List Char → Bool
  | _, [] => true
  | behindDigit, head :: rest =>
      if head = '_' then behindDigit && rest.head?.any isDigit && isSeparated isDigit false rest
      else isSeparated isDigit (isDigit head) rest

/-- Whether a numeral is longer than a zero and starts with one. -/
def Numeral.hasLeadingZero (numeral : Numeral) : Bool :=
  numeral.body.head? = some '0' && numeral.body.length ≠ 1

/-- The value of a run of digits in a base. -/
def valueIn (base : Nat) (digits : List Char) : Nat :=
  digits.foldl (fun total digit => total * base + (Quoted.hexValue? digit).getD 0) 0

/-- The number that digits stand for in a base, apart from the underscores between them. -/
def number? (base : Nat) (characters : List Char) : Option Nat :=
  let digits := characters.filter (· ≠ '_')
  if !digits.isEmpty && digits.all (isDigitIn base) then some (valueIn base digits) else none

/-- A number with its sign. -/
def withSign (negative : Bool) (number : Nat) : Int :=
  if negative then -number else number

/-- Reads an integer in the given base, behind the mark of the base. There need not be any
digits. -/
def basedInteger? (base : Nat) (characters : List Char) : Option Value :=
  if characters.all (fun character => isDigitIn base character || character = '_')
      && isSeparated isHexDigit false characters then
    some (.integer ((number? base characters).map fun number => (number : Int)))
  else none

/-- Reads a decimal integer. -/
def integer? (numeral : Numeral) : Option Value :=
  if !numeral.hasLeadingZero && isSeparated isHexDigit false numeral.body then
    some (.integer ((number? 10 numeral.body).map (withSign numeral.isNegative)))
  else none

/-- Takes a run of digits and underscores with a digit in it, and gives its digits. -/
def digits : Reader (List Char) := do
  let digits := (← run fun character => character.isDigit || character = '_').filter (· ≠ '_')
  if digits.isEmpty then refuse else return digits

/-- Takes a fraction, if there is one. -/
def fraction : Reader (List Char) := do
  if ← optionally "." then digits else return []

/-- Whether a character introduces an exponent. -/
def isExponentLetter (character : Char) : Bool :=
  character = 'e' || character = 'E'

/-- Takes an exponent, if there is one. -/
def exponent : Reader Int := do
  if !(← peek).any isExponentLetter then return 0
  let _ ← next
  let negative := (← peek) = some '-'
  if (← peek) = some '+' || negative then
    let _ ← next
  return withSign negative (valueIn 10 (← digits))

/-- Takes a floating-point number without its sign. -/
def magnitude (negative : Bool) : Reader Floating := do
  let first ← peek
  let whole ← digits
  if first = some '0' && whole.length ≠ 1 then refuse
  let fraction ← fraction
  let exponent ← exponent
  return .finite negative (valueIn 10 (whole ++ fraction)) (exponent - fraction.length)

/-- Reads a floating-point number with a fraction, an exponent or both. -/
def floating? (numeral : Numeral) : Option Value :=
  if isSeparated Char.isDigit false numeral.body then
    match magnitude numeral.isNegative numeral.body with
    | some (number, []) => some (.floating number)
    | _ => none
  else none

/-- Whether a character occurs in floating-point numbers only. -/
def isFloatingMark (character : Char) : Bool :=
  character = '.' || isExponentLetter character

/-- Reads a decimal number or a moment. The characters behind its first digits tell which. -/
def decimal? (characters : List Char) : Option Value :=
  let numeral := Numeral.ofWord characters
  let behind := numeral.body.dropWhile Char.isDigit
  match behind.head? with
  | none => if numeral.body.isEmpty then none else integer? numeral
  | some mark =>
      if mark = '-' || mark = ':' then (Moment.parse? characters).map .moment
      else if behind.contains ' ' then none
      else if behind.any isFloatingMark then floating? numeral
      else if mark = '_' then integer? numeral
      else none

/-- Reads a number that is written out as a name. -/
def named? (characters : List Char) : Option Value :=
  let numeral := Numeral.ofWord characters
  if numeral.body = ['i', 'n', 'f'] then some (.floating (.infinite numeral.isNegative))
  else if numeral.body = ['n', 'a', 'n'] then some (.floating .notANumber)
  else none

/-- Reads a whole word. -/
def parse? (characters : List Char) : Option Value :=
  match characters with
  | ['t', 'r', 'u', 'e'] => some (.boolean true)
  | ['f', 'a', 'l', 's', 'e'] => some (.boolean false)
  | '0' :: 'x' :: rest => basedInteger? 16 rest
  | '0' :: 'o' :: rest => basedInteger? 8 rest
  | '0' :: 'b' :: rest => basedInteger? 2 rest
  | _ => (named? characters).or (decimal? characters)

/-- Takes an unquoted value, and the gap behind it. -/
def scalar : Reader Value := do
  match parse? (← word) with
  | some value => return value
  | none => refuse

end BusinessProcess.Toml.Scalar
