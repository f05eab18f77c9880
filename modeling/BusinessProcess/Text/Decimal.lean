/-!
# Decimal numerals

Natural numbers in ASCII decimal digits: `digits` writes a number in its shortest form,
`value` reads any run of digits, leading zeros included. Reading what was written gives the
number back, and writing what was read drops the leading zeros.
-/

namespace BusinessProcess.Text.Decimal

/-- The number that a run of decimal digits stands for. -/
def value (digits : List Char) : Nat :=
  digits.foldl (fun total digit => total * 10 + (digit.toNat - '0'.toNat)) 0

/-- The shortest run of decimal digits that stands for a number. -/
def digits (number : Nat) : List Char :=
  Nat.toDigits 10 number

/-- A non-empty run of ASCII digits. -/
def isNumeral (characters : List Char) : Bool :=
  !characters.isEmpty && characters.all Char.isDigit

/-- The decimal text of a number. -/
def write (number : Nat) : String :=
  String.ofList (digits number)

/-- What is written is a numeral. -/
theorem isNumeral_digits (number : Nat) : isNumeral (digits number) = true := by
  simp only [isNumeral, digits, Bool.and_eq_true, List.all_eq_true, Bool.not_eq_true',
    List.isEmpty_eq_false_iff]
  exact ⟨Nat.toDigits_ne_nil,
    fun _ member => Nat.isDigit_of_mem_toDigits (by decide) (by decide) member⟩

/-- A numeral extended by one digit stands for ten times as much, and the digit. -/
theorem value_append_singleton (characters : List Char) (digit : Char) :
    value (characters ++ [digit]) = value characters * 10 + (digit.toNat - '0'.toNat) := by
  simp [value]

/-- Reading what was written gives the number back. -/
theorem value_digits (number : Nat) : value (digits number) = number := by
  induction number using Nat.strongRecOn with
  | _ number inductionHypothesis =>
      have digitValue : ∀ n, n < 10 → (Nat.digitChar n).toNat - '0'.toNat = n := by decide
      by_cases small : number < 10
      · rw [digits, Nat.toDigits_of_lt_base small]
        simpa [value] using digitValue number small
      · have split : digits number = digits (number / 10) ++ [Nat.digitChar (number % 10)] := by
          rw [digits, digits, Nat.toDigits_of_base_le (by decide) (by omega)]
        rw [split, value_append_singleton, inductionHypothesis (number / 10) (by omega),
          digitValue (number % 10) (by omega)]
        omega

end BusinessProcess.Text.Decimal
