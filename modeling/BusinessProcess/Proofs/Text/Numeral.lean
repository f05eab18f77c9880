import Mathlib.Data.List.Induction
import BusinessProcess.Text.Decimal

/-!
# Numerals and the numbers that they stand for

A numeral is a run of ASCII digits and stands for the number that its digits make in base ten. The
same number may be spelled with zeros in front. Reading any of these numerals and writing the number
again takes the zeros away that make no difference.
-/

namespace BusinessProcess.Text.Decimal

/-- A run of ASCII digits, at least one. -/
structure Numeral (characters : List Char) : Prop where
  filled : characters ≠ []
  digits : ∀ character ∈ characters, '0' ≤ character ∧ character ≤ '9'

/-- A numeral without the zeros in front that make no difference. A zero that is all there is
stays. -/
def significant : List Char → List Char
  | '0' :: next :: rest => significant (next :: rest)
  | characters => characters

theorem isDigit_iff {character : Char} :
    character.isDigit = true ↔ '0' ≤ character ∧ character ≤ '9' := by
  simp only [Char.isDigit, Bool.and_eq_true, decide_eq_true_eq, ge_iff_le]
  exact Iff.rfl

theorem isNumeral_iff {characters : List Char} :
    isNumeral characters = true ↔ Numeral characters := by
  simp only [isNumeral, Bool.and_eq_true, Bool.not_eq_true', List.isEmpty_eq_false_iff,
    List.all_eq_true, isDigit_iff]
  constructor
  · rintro ⟨filled, digits⟩
    exact ⟨filled, digits⟩
  · rintro ⟨filled, digits⟩
    exact ⟨filled, digits⟩

/-- What is written for a number is a numeral. -/
theorem numeral_digits (number : Nat) : Numeral (digits number) :=
  isNumeral_iff.1 (isNumeral_digits number)

/-- A character that is no digit does not occur in a numeral. -/
theorem Numeral.not_mem {characters : List Char} (numeral : Numeral characters) {letter : Char}
    (other : letter.isDigit = false) : letter ∉ characters := by
  intro member
  rw [isDigit_iff.2 (numeral.digits letter member)] at other
  cases other

/-- A numeral is read in base ten. -/
theorem value_eq_ofDigitChars (characters : List Char) :
    value characters = Nat.ofDigitChars 10 characters 0 := by
  simp only [value, Nat.ofDigitChars, Nat.mul_comm]

/-- A single digit is written as it was read. -/
theorem toDigits_ofDigitChars_singleton {digit : Char} (isDigit : '0' ≤ digit ∧ digit ≤ '9') :
    digit.toNat - '0'.toNat < 10 ∧ Nat.toDigits 10 (digit.toNat - '0'.toNat) = [digit] := by
  have low : 48 ≤ digit.toNat := isDigit.1
  have high : digit.toNat ≤ 57 := isDigit.2
  have below : digit.toNat - '0'.toNat < 10 := by
    have zero : '0'.toNat = 48 := rfl
    omega
  refine ⟨below, ?_⟩
  rw [Nat.toDigits_of_lt_base below]
  have same : Nat.digitChar (digit.toNat - '0'.toNat) = Char.ofNat digit.toNat := by
    have all : ∀ number, number < 10 → Nat.digitChar number = Char.ofNat (number + 48) := by decide
    rw [all _ below]
    congr 1
    exact Nat.sub_add_cancel low
  rw [same, Char.ofNat_toNat]

/-- A numeral that does not begin with a zero is written as it was read. -/
theorem toDigits_ofDigitChars_of_head?_ne {characters : List Char} (numeral : Numeral characters)
    (noZero : characters.head? ≠ some '0') :
    Nat.toDigits 10 (Nat.ofDigitChars 10 characters 0) = characters := by
  induction characters using List.reverseRecOn with
  | nil => exact absurd rfl numeral.filled
  | append_singleton front last inductionHypothesis =>
      obtain ⟨below, written⟩ := toDigits_ofDigitChars_singleton (numeral.digits last (by simp))
      rw [Nat.ofDigitChars_append, Nat.ofDigitChars_cons, Nat.ofDigitChars_nil]
      cases front with
      | nil => simpa using written
      | cons head rest =>
          have inFront : Nat.toDigits 10 (Nat.ofDigitChars 10 (head :: rest) 0) = head :: rest := by
            apply inductionHypothesis
            · exact ⟨List.cons_ne_nil head rest, fun character member =>
                numeral.digits character (List.mem_append_left _ member)⟩
            · simpa using noZero
          have positive : 0 < Nat.ofDigitChars 10 (head :: rest) 0 := by
            apply Nat.pos_of_ne_zero
            intro isZero
            rw [isZero, Nat.toDigits_zero] at inFront
            rw [← inFront] at noZero
            exact noZero rfl
          rw [← Nat.toDigits_append_toDigits (by decide) positive below, inFront, written]

/-- Reading a numeral and writing the number leaves what is significant. -/
theorem toDigits_ofDigitChars {characters : List Char} (numeral : Numeral characters) :
    Nat.toDigits 10 (Nat.ofDigitChars 10 characters 0) = significant characters := by
  induction characters using significant.induct with
  | case1 next rest inductionHypothesis =>
      rw [significant, Nat.ofDigitChars_cons]
      apply inductionHypothesis
      exact ⟨List.cons_ne_nil next rest, fun character member =>
        numeral.digits character (List.mem_cons_of_mem _ member)⟩
  | case2 characters other =>
      rw [significant.eq_2 characters other]
      by_cases zero : characters.head? = some '0'
      · -- Behind a zero that is not dropped there is nothing.
        obtain ⟨rest, rfl⟩ := List.head?_eq_some_iff.1 zero
        cases rest with
        | nil => rfl
        | cons next rest => exact absurd rfl (other next rest)
      · exact toDigits_ofDigitChars_of_head?_ne numeral zero

end BusinessProcess.Text.Decimal
