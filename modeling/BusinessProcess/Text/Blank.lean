/-!
# Blank characters and trimming

A blank is a character of the Unicode class `White_Space`. A text made of blanks only is
the same as no value wherever a value is entered, and values are stored without the blanks
around them.
-/

namespace BusinessProcess.Text

/-- A blank: a character of the Unicode class `White_Space`. -/
def isBlank (character : Char) : Bool :=
  let point := character.toNat
  (0x09 ≤ point && point ≤ 0x0D) || point == 0x20 || point == 0x85 || point == 0xA0
    || point == 0x1680 || (0x2000 ≤ point && point ≤ 0x200A) || point == 0x2028
    || point == 0x2029 || point == 0x202F || point == 0x205F || point == 0x3000

/-- Whether a text holds nothing but blanks; the empty text does. -/
def isBlankText (text : String) : Bool :=
  text.toList.all isBlank

/-- A list of characters without the blanks at its end. -/
def dropBlankEnd (characters : List Char) : List Char :=
  (characters.reverse.dropWhile isBlank).reverse

/-- The text without the blanks at its two ends. -/
def trim (text : String) : String :=
  String.ofList (dropBlankEnd (text.toList.dropWhile isBlank))

/-- The trimmed text of an entered value, or nothing if no value was entered or only blanks. -/
def entered? (value : Option String) : Option String :=
  (value.map trim).filter fun text => !text.isEmpty

/-- Dropping the leading blanks leaves nothing exactly of a run of blanks. -/
theorem dropWhile_isBlank_eq_nil_iff {characters : List Char} :
    characters.dropWhile isBlank = [] ↔ characters.all isBlank = true := by
  induction characters with
  | nil => exact ⟨fun _ => rfl, fun _ => rfl⟩
  | cons head rest inductionHypothesis =>
      rw [List.dropWhile_cons, List.all_cons]
      cases isBlank head with
      | false => simp only [Bool.false_eq_true, if_false, Bool.false_and, reduceCtorEq]
      | true => simp only [if_true, Bool.true_and, inductionHypothesis]

/-- What is left without the leading blanks is blank only if all was. -/
theorem all_isBlank_dropWhile (characters : List Char) :
    (characters.dropWhile isBlank).all isBlank = characters.all isBlank := by
  induction characters with
  | nil => rfl
  | cons head rest inductionHypothesis =>
      rw [List.dropWhile_cons]
      cases blank : isBlank head with
      | false => rw [if_neg Bool.false_ne_true]
      | true => rw [if_pos rfl, inductionHypothesis, List.all_cons, blank, Bool.true_and]

/-- Trimming leaves nothing exactly of a blank text. -/
theorem trim_eq_empty_iff {text : String} : trim text = "" ↔ isBlankText text = true := by
  rw [← String.toList_inj]
  simp only [trim, dropBlankEnd, isBlankText, String.toList_ofList, String.toList_empty,
    List.reverse_eq_nil_iff, dropWhile_isBlank_eq_nil_iff, List.all_reverse,
    all_isBlank_dropWhile]

end BusinessProcess.Text
