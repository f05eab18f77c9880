import BusinessProcess.Duration.Text
import BusinessProcess.Proofs.Text.Numeral

/-!
# Reading durations

The texts that read as durations are those that spell hours, minutes or both, in this order, with
amounts that a word of 32 bits holds. A text spells its units in one way only, so reading is
fixed by the grammar. Writing a duration that was read gives the text without the zeros in front
that make no difference.
-/

namespace BusinessProcess.Duration

open Text.Decimal (Numeral significant)

/-! ## Spelling -/

/-- One unit as it is spelled: digits and a letter, or nothing. -/
def spellUnit (letter : Char) : Option (List Char) → List Char
  | some digits => digits ++ [letter]
  | none => []

/-- The text spells hours and minutes, each of them or only one: `(D+ 'H')? (D+ 'M')?`, but not
nothing at all. -/
structure Spells (text : String) (hours minutes : Option (List Char)) : Prop where
  filled : text ≠ ""
  whole : text.toList = spellUnit 'H' hours ++ spellUnit 'M' minutes
  hourDigits : ∀ digits, hours = some digits → Numeral digits
  minuteDigits : ∀ digits, minutes = some digits → Numeral digits

/-- The amount of a unit is the number that its digits stand for; a unit is named exactly if it is
spelled. -/
inductive Denotes : Option (List Char) → Option UInt32 → Prop
  | unnamed : Denotes none none
  | named {digits : List Char} {amount : UInt32}
      (value : Nat.ofDigitChars 10 digits 0 = amount.toNat) : Denotes (some digits) (some amount)

/-- The digits of a unit, if it is spelled, stand for no more than a word of 32 bits holds. -/
def Fits (unit : Option (List Char)) : Prop :=
  ∀ digits, unit = some digits → Nat.ofDigitChars 10 digits 0 ≤ 4294967295

/-- `written` is `text` with the zeros in front of each amount removed that make no difference. -/
def Shortens (text written : String) : Prop :=
  ∃ hours minutes, Spells text hours minutes ∧
    written.toList = spellUnit 'H' (hours.map significant) ++
      spellUnit 'M' (minutes.map significant)

/-- Different digits spell a unit differently. -/
theorem spellUnit_inj {letter : Char} {first second : Option (List Char)} :
    spellUnit letter first = spellUnit letter second ↔ first = second := by
  cases first <;> cases second <;> simp [spellUnit]

namespace Spells

variable {text : String} {hours minutes : Option (List Char)}

/-- The hours are what comes before the first `H`, and without hours there is none. -/
theorem cutAt?_eq (spells : Spells text hours minutes) :
    Text.cutAt? 'H' text.toList = hours.map fun digits => (digits, spellUnit 'M' minutes) := by
  rw [spells.whole]
  cases hours with
  | some digits =>
      apply Text.cutAt?_eq_some_iff.2
      exact ⟨by simp [spellUnit], (spells.hourDigits digits rfl).not_mem (by decide)⟩
  | none =>
      apply Text.cutAt?_eq_none_iff.2
      cases minutes with
      | none => exact List.not_mem_nil
      | some digits =>
          have noLetter : 'H' ∉ digits := (spells.minuteDigits digits rfl).not_mem (by decide)
          simp [spellUnit, noLetter]

/-- A text spells its units in one way. -/
theorem unique (spells : Spells text hours minutes) {otherHours otherMinutes : Option (List Char)}
    (other : Spells text otherHours otherMinutes) : hours = otherHours ∧ minutes = otherMinutes := by
  have sameCut := spells.cutAt?_eq.symm.trans other.cutAt?_eq
  have sameHours : hours = otherHours := by
    cases hours <;> cases otherHours <;> simp_all
  subst sameHours
  have sameText := spells.whole.symm.trans other.whole
  exact ⟨rfl, spellUnit_inj.1 (List.append_cancel_left sameText)⟩

end Spells

/-! ## Reading what is spelled -/

/-- An amount is a number that a word holds. -/
theorem amount?_eq_some_iff {number : Nat} {amount : UInt32} :
    amount? number = some amount ↔ number = amount.toNat := by
  constructor
  · exact fun fits => (toNat_of_amount? fits).symm
  · rintro rfl
    rw [amount?, if_pos amount.toNat_lt, UInt32.ofNat_toNat]

/-- A computation in steps succeeds exactly if its first step does and the rest after it. -/
theorem bind_eq_ok_iff {ε α β : Type} {first : Except ε α} {rest : α → Except ε β} {result : β} :
    first >>= rest = .ok result ↔ ∃ value, first = .ok value ∧ rest value = .ok result := by
  cases first with
  | error _ => simp [bind, Except.bind]
  | ok value => simp [bind, Except.bind]

/-- A computation in steps fails where its first step does, or later. -/
theorem bind_eq_error_iff {ε α β : Type} {first : Except ε α} {rest : α → Except ε β} {error : ε} :
    first >>= rest = .error error ↔
      first = .error error ∨ ∃ value, first = .ok value ∧ rest value = .error error := by
  cases first with
  | error _ => simp [bind, Except.bind]
  | ok value => simp [bind, Except.bind]

/-- The amounts are what numerals stand for, as far as words hold it. -/
theorem readAmount_eq_ok_iff {text : String} {digits : List Char} {amount : UInt32} :
    readAmount text digits = .ok amount ↔
      Numeral digits ∧ Nat.ofDigitChars 10 digits 0 = amount.toNat := by
  rw [readAmount, ← Text.Decimal.isNumeral_iff, ← Text.Decimal.value_eq_ofDigitChars,
    ← amount?_eq_some_iff]
  cases Text.Decimal.isNumeral digits with
  | false => simp
  | true => cases amount? (Text.Decimal.value digits) <;> simp

/-- Whatever is no amount is called malformed. -/
theorem error_of_readAmount {text : String} {digits : List Char} {error : DurationError}
    (failed : readAmount text digits = .error error) : error = .malformed text := by
  unfold readAmount at failed
  split at failed
  · split at failed <;> cases failed
    rfl
  · cases failed
    rfl

/-- The minutes are read as they are spelled. -/
theorem readMinutes_eq_ok_iff {text : String} {rest : List Char} {minutes : Option UInt32} :
    readMinutes text rest = .ok minutes ↔ ∃ unit, rest = spellUnit 'M' unit ∧
      (∀ digits, unit = some digits → Numeral digits) ∧ Denotes unit minutes := by
  constructor
  · intro done
    unfold readMinutes at done
    split at done
    next =>
      cases done
      exact ⟨none, rfl, nofun, .unnamed⟩
    next =>
      split at done
      next digits isFinal =>
        cases read : readAmount text digits with
        | error error =>
            rw [read] at done
            cases done
        | ok amount =>
            rw [read] at done
            cases done
            obtain ⟨numeral, value⟩ := readAmount_eq_ok_iff.1 read
            refine ⟨some digits, Text.beforeFinal?_eq_some_iff.1 isFinal, ?_, .named value⟩
            rintro other ⟨⟩
            exact numeral
      next => cases done
  · rintro ⟨unit, rfl, numeral, denotes⟩
    cases denotes with
    | unnamed => rfl
    | @named digits amount value =>
        have read : readAmount text digits = .ok amount :=
          readAmount_eq_ok_iff.2 ⟨numeral digits rfl, value⟩
        rw [spellUnit, readMinutes]
        · rw [Text.beforeFinal?_eq_some_iff.2 rfl]
          dsimp only
          rw [read]
          rfl
        · simp

theorem error_of_readMinutes {text : String} {rest : List Char} {error : DurationError}
    (failed : readMinutes text rest = .error error) : error = .malformed text := by
  unfold readMinutes at failed
  split at failed
  next => cases failed
  next =>
    split at failed
    next digits _ =>
      cases read : readAmount text digits with
      | error other =>
          rw [read] at failed
          cases failed
          exact error_of_readAmount read
      | ok amount =>
          rw [read] at failed
          cases failed
    next =>
      cases failed
      rfl

/-- Some unit is named, so there is a duration of these units. -/
theorem ofUnits_eq_ok_iff {hours minutes : Option UInt32} {duration : Duration} :
    ofUnits hours minutes = .ok duration ↔
      duration.hours = hours ∧ duration.minutes = minutes := by
  unfold ofUnits
  split
  next named =>
    constructor
    · rintro ⟨⟩
      exact ⟨rfl, rfl⟩
    · rintro ⟨rfl, rfl⟩
      rfl
  next unnamed =>
    constructor
    · nofun
    · rintro ⟨rfl, rfl⟩
      exact absurd duration.named unnamed

/-- Around an `H`, hours and minutes are read. -/
theorem parse_of_cut {text : String} {digits rest : List Char}
    (cut : Text.cutAt? 'H' text.toList = some (digits, rest)) :
    parse text = (do
      let hours ← readAmount text digits
      let minutes ← readMinutes text rest
      ofUnits (some hours) minutes) := by
  have filled : text ≠ "" := by
    rintro rfl
    cases cut
  rw [parse, String.isEmpty_eq_false_iff.2 filled, cut]
  rfl

/-- Without an `H`, the text is read as minutes. -/
theorem parse_of_uncut {text : String} (filled : text ≠ "")
    (uncut : Text.cutAt? 'H' text.toList = none) :
    parse text = (do
      let minutes ← readMinutes text text.toList
      ofUnits none minutes) := by
  rw [parse, String.isEmpty_eq_false_iff.2 filled, uncut]
  rfl

/-- A text reads as a duration exactly if it spells the units of the duration. -/
theorem parse_eq_ok_iff {text : String} {duration : Duration} :
    parse text = .ok duration ↔ ∃ hours minutes, Spells text hours minutes ∧
      Denotes hours duration.hours ∧ Denotes minutes duration.minutes := by
  constructor
  · intro parsed
    have filled : text ≠ "" := by
      rintro rfl
      cases parsed
    cases cut : Text.cutAt? 'H' text.toList with
    | some parts =>
        obtain ⟨digits, rest⟩ := parts
        simp only [parse_of_cut cut, bind_eq_ok_iff] at parsed
        obtain ⟨hours, hoursRead, minutes, minutesRead, made⟩ := parsed
        obtain ⟨sameHours, sameMinutes⟩ := ofUnits_eq_ok_iff.1 made
        obtain ⟨numeral, value⟩ := readAmount_eq_ok_iff.1 hoursRead
        obtain ⟨unit, rfl, minuteDigits, denotes⟩ := readMinutes_eq_ok_iff.1 minutesRead
        refine ⟨some digits, unit, ⟨filled, ?_, ?_, minuteDigits⟩, ?_, ?_⟩
        · simpa [spellUnit] using (Text.cutAt?_eq_some_iff.1 cut).1
        · rintro other ⟨⟩
          exact numeral
        · rw [sameHours]
          exact .named value
        · rw [sameMinutes]
          exact denotes
    | none =>
        simp only [parse_of_uncut filled cut, bind_eq_ok_iff] at parsed
        obtain ⟨minutes, minutesRead, made⟩ := parsed
        obtain ⟨sameHours, sameMinutes⟩ := ofUnits_eq_ok_iff.1 made
        obtain ⟨unit, whole, minuteDigits, denotes⟩ := readMinutes_eq_ok_iff.1 minutesRead
        refine ⟨none, unit, ⟨filled, whole, nofun, minuteDigits⟩, ?_, ?_⟩
        · rw [sameHours]
          exact .unnamed
        · rw [sameMinutes]
          exact denotes
  · obtain ⟨hourAmount, minuteAmount, named⟩ := duration
    rintro ⟨hours, minutes, spells, denotesHours, denotesMinutes⟩
    dsimp only at denotesHours denotesMinutes
    have minutesRead : readMinutes text (spellUnit 'M' minutes) = .ok minuteAmount :=
      readMinutes_eq_ok_iff.2 ⟨minutes, rfl, spells.minuteDigits, denotesMinutes⟩
    have cut := spells.cutAt?_eq
    cases denotesHours with
    | unnamed =>
        rw [parse_of_uncut spells.filled cut, bind_eq_ok_iff]
        have whole : text.toList = spellUnit 'M' minutes := spells.whole
        exact ⟨minuteAmount, whole ▸ minutesRead, ofUnits_eq_ok_iff.2 ⟨rfl, rfl⟩⟩
    | @named digits amount value =>
        rw [parse_of_cut cut, bind_eq_ok_iff]
        have hoursRead : readAmount text digits = .ok amount :=
          readAmount_eq_ok_iff.2 ⟨spells.hourDigits digits rfl, value⟩
        refine ⟨amount, hoursRead, bind_eq_ok_iff.2 ⟨minuteAmount, minutesRead, ?_⟩⟩
        exact ofUnits_eq_ok_iff.2 ⟨rfl, rfl⟩

/-- There is no duration without a unit, and of any unit there is one. -/
theorem ofUnits_eq_error_iff {hours minutes : Option UInt32} {error : DurationError} :
    ofUnits hours minutes = .error error ↔ hours = none ∧ minutes = none ∧ error = .empty := by
  unfold ofUnits
  cases hours <;> cases minutes <;> simp [eq_comm]

/-- Whatever is written and does not read as a duration is called malformed. -/
theorem error_of_parse {text : String} (filled : text ≠ "") {error : DurationError}
    (failed : parse text = .error error) : error = .malformed text := by
  cases cut : Text.cutAt? 'H' text.toList with
  | some parts =>
      obtain ⟨digits, rest⟩ := parts
      simp only [parse_of_cut cut, bind_eq_error_iff] at failed
      obtain hoursFailed | ⟨hours, -, minutesFailed | ⟨minutes, -, unmade⟩⟩ := failed
      · exact error_of_readAmount hoursFailed
      · exact error_of_readMinutes minutesFailed
      · cases (ofUnits_eq_error_iff.1 unmade).1
  | none =>
      simp only [parse_of_uncut filled cut, bind_eq_error_iff] at failed
      obtain minutesFailed | ⟨minutes, minutesRead, unmade⟩ := failed
      · exact error_of_readMinutes minutesFailed
      · obtain ⟨unit, whole, -, denotes⟩ := readMinutes_eq_ok_iff.1 minutesRead
        rw [(ofUnits_eq_error_iff.1 unmade).2.1] at denotes
        cases denotes
        exact absurd (String.toList_inj.1 (whole.trans String.toList_empty.symm)) filled

/-- Units of a text that fit words have amounts. -/
theorem exists_denotes_iff {unit : Option (List Char)} :
    (∃ amount, Denotes unit amount) ↔ Fits unit := by
  constructor
  · rintro ⟨amount, denotes⟩ digits rfl
    cases denotes with
    | @named _ amount value =>
        have below := amount.toNat_lt
        omega
  · intro fits
    cases unit with
    | none => exact ⟨none, .unnamed⟩
    | some digits =>
        have small : Nat.ofDigitChars 10 digits 0 < UInt32.size :=
          Nat.lt_succ_of_le (fits digits rfl)
        exact ⟨some (UInt32.ofNat _), .named (UInt32.toNat_ofNat_of_lt' small).symm⟩

/-- A text reads as some duration exactly if it spells units that fit words. -/
theorem exists_parse_eq_ok_iff {text : String} :
    (∃ duration, parse text = .ok duration) ↔
      ∃ hours minutes, Spells text hours minutes ∧ Fits hours ∧ Fits minutes := by
  constructor
  · rintro ⟨duration, parsed⟩
    obtain ⟨hours, minutes, spells, denotesHours, denotesMinutes⟩ := parse_eq_ok_iff.1 parsed
    exact ⟨hours, minutes, spells, exists_denotes_iff.1 ⟨_, denotesHours⟩,
      exists_denotes_iff.1 ⟨_, denotesMinutes⟩⟩
  · rintro ⟨hours, minutes, spells, hoursFit, minutesFit⟩
    obtain ⟨hourAmount, denotesHours⟩ := exists_denotes_iff.2 hoursFit
    obtain ⟨minuteAmount, denotesMinutes⟩ := exists_denotes_iff.2 minutesFit
    have named : hourAmount.isSome = true ∨ minuteAmount.isSome = true := by
      cases denotesHours with
      | named => exact .inl rfl
      | unnamed =>
          cases denotesMinutes with
          | named => exact .inr rfl
          | unnamed =>
              have nothing : text.toList = "".toList := spells.whole
              exact absurd (String.toList_inj.1 nothing) spells.filled
    exact ⟨⟨hourAmount, minuteAmount, named⟩,
      parse_eq_ok_iff.2 ⟨hours, minutes, spells, denotesHours, denotesMinutes⟩⟩

/-! ## Writing what was read -/

/-- A unit is written with the digits of its amount. -/
theorem toList_writeUnit (unit : Option UInt32) (letter : Char) :
    (writeUnit unit letter.toString).toList =
      spellUnit letter (unit.map fun amount => Text.Decimal.digits amount.toNat) := by
  cases unit <;> simp [writeUnit, spellUnit, Text.Decimal.write]

/-- What is written for a duration spells its units. -/
theorem toList_display (duration : Duration) : duration.display.toList =
    spellUnit 'H' (duration.hours.map fun amount => Text.Decimal.digits amount.toNat) ++
      spellUnit 'M' (duration.minutes.map fun amount => Text.Decimal.digits amount.toNat) := by
  rw [display, String.toList_append]
  exact congrArg₂ (· ++ ·) (toList_writeUnit duration.hours 'H')
    (toList_writeUnit duration.minutes 'M')

/-- The digits of an amount stand for the amount. -/
theorem denotes_digits (unit : Option UInt32) :
    Denotes (unit.map fun amount => Text.Decimal.digits amount.toNat) unit := by
  cases unit with
  | none => exact .unnamed
  | some amount =>
      apply Denotes.named
      rw [← Text.Decimal.value_eq_ofDigitChars, Text.Decimal.value_digits]

/-- A duration names a unit, so that what is written for it spells one. -/
theorem spells_display (duration : Duration) : Spells duration.display
    (duration.hours.map fun amount => Text.Decimal.digits amount.toNat)
    (duration.minutes.map fun amount => Text.Decimal.digits amount.toNat) where
  filled := by
    rw [ne_eq, ← String.toList_inj, toList_display]
    obtain ⟨hours, minutes, named⟩ := duration
    cases hours with
    | some amount => simp [spellUnit]
    | none =>
        cases minutes with
        | some amount => simp [spellUnit]
        | none => simp at named
  whole := toList_display duration
  hourDigits := by
    intro digits isWritten
    obtain ⟨amount, -, rfl⟩ := Option.map_eq_some_iff.1 isWritten
    exact Text.Decimal.numeral_digits amount.toNat
  minuteDigits := by
    intro digits isWritten
    obtain ⟨amount, -, rfl⟩ := Option.map_eq_some_iff.1 isWritten
    exact Text.Decimal.numeral_digits amount.toNat

/-- What is written for a duration reads as the duration. -/
theorem parse_display (duration : Duration) : parse duration.display = .ok duration :=
  parse_eq_ok_iff.2 ⟨_, _, spells_display duration, denotes_digits duration.hours,
    denotes_digits duration.minutes⟩

/-- Of a unit that was read, its significant digits are written. -/
theorem digits_of_denotes {unit : Option (List Char)} {amount : Option UInt32}
    (numeral : ∀ digits, unit = some digits → Numeral digits) (denotes : Denotes unit amount) :
    (amount.map fun amount => Text.Decimal.digits amount.toNat) = unit.map significant := by
  cases denotes with
  | unnamed => rfl
  | @named digits amount value =>
      have written := Text.Decimal.toDigits_ofDigitChars (numeral digits rfl)
      rw [value] at written
      exact congrArg some written

/-- What is written for a duration that was read is the text without zeros in front. -/
theorem shortens_display {text : String} {duration : Duration}
    (parsed : parse text = .ok duration) : Shortens text duration.display := by
  obtain ⟨hours, minutes, spells, denotesHours, denotesMinutes⟩ := parse_eq_ok_iff.1 parsed
  refine ⟨hours, minutes, spells, ?_⟩
  rw [toList_display, digits_of_denotes spells.hourDigits denotesHours,
    digits_of_denotes spells.minuteDigits denotesMinutes]

/-- Reading accepts the grammar `(D+ 'H')? (D+ 'M')?`, except for the empty text, with amounts of 32
bits. A text spells its units in one way, and these are the units read. The empty text and all
others are refused, each with its own error. Writing gives what reads as the same duration: the text
read without the zeros in front that make no difference. Doing so again changes nothing. -/
theorem parse_exact (text : String) :
    ((∃ duration, parse text = .ok duration) ↔
      ∃ hours minutes, Spells text hours minutes ∧ Fits hours ∧ Fits minutes) ∧
    (∀ duration, parse text = .ok duration ↔ ∃ hours minutes, Spells text hours minutes ∧
      Denotes hours duration.hours ∧ Denotes minutes duration.minutes) ∧
    (∀ hours minutes otherHours otherMinutes, Spells text hours minutes →
      Spells text otherHours otherMinutes → hours = otherHours ∧ minutes = otherMinutes) ∧
    (parse text = .error .empty ↔ text = "") ∧
    (∀ error, parse text = .error error → text ≠ "" → error = .malformed text) ∧
    (∀ duration : Duration, parse duration.display = .ok duration) ∧
    (∀ duration, parse text = .ok duration → Shortens text duration.display) ∧
    ∀ written, (parse text).map display = .ok written →
      (parse written).map display = .ok written := by
  refine ⟨exists_parse_eq_ok_iff, fun _ => parse_eq_ok_iff,
    fun _ _ _ _ spells other => spells.unique other, ⟨?_, ?_⟩,
    fun _ failed filled => error_of_parse filled failed, parse_display,
    fun _ => shortens_display, ?_⟩
  · intro failed
    by_contra filled
    cases error_of_parse filled failed
  · rintro rfl
    rfl
  · intro written canonical
    cases parsed : parse text with
    | error error =>
        rw [parsed] at canonical
        cases canonical
    | ok duration =>
        rw [parsed] at canonical
        obtain rfl : duration.display = written := Except.ok.inj canonical
        rw [parse_display]
        rfl

/-- Zeros in front are read and not written. -/
example : (parse "007H000M").map display = .ok "7H0M" := by
  decide

/-- The greatest amount is the last one that a word holds. -/
example : (parse "4294967295M").isOk = true ∧
    parse "4294967296M" = .error (.malformed "4294967296M") := by
  decide

end BusinessProcess.Duration
