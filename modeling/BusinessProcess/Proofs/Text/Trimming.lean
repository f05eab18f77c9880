import Mathlib.Data.List.DropRight
import BusinessProcess.Text.Blank

/-!
# Values without the blanks around them

A value is entered without the blanks around it, and a blank value is none at all. What is left of
a text begins and ends with no blank and has nothing but blanks around it, which leaves no choice.
-/

namespace BusinessProcess.Text

/-- `core` is what is left of `text` without the blanks at its two ends. -/
structure Trims (text core : String) : Prop where
  around : ∃ before after, text = before ++ core ++ after ∧
    isBlankText before = true ∧ isBlankText after = true
  first : ∀ character, core.toList.head? = some character → isBlank character = false
  last : ∀ character, core.toList.getLast? = some character → isBlank character = false

/-- What a value comes to once it is entered: nothing, or a text with no blanks around it. -/
inductive Entered : Option String → Option String → Prop
  | nothing : Entered none none
  | blank {text : String} (isBlank : isBlankText text = true) : Entered (some text) none
  | filled {text core : String} (trims : Trims text core) (notEmpty : core ≠ "") :
      Entered (some text) (some core)

/-- Where blanks were dropped, none comes first. -/
theorem isBlank_of_head?_dropWhile {characters : List Char} {first : Char}
    (isFirst : (characters.dropWhile isBlank).head? = some first) : isBlank first = false := by
  have noBlank := List.head?_dropWhile_not isBlank characters
  rw [isFirst] at noBlank
  exact noBlank

/-- Trimming takes the blanks away from both ends, and no more. -/
theorem trims_trim (text : String) : Trims text (trim text) where
  around := by
    have inner : dropBlankEnd (text.toList.dropWhile isBlank) ++
        (text.toList.dropWhile isBlank).rtakeWhile isBlank = text.toList.dropWhile isBlank :=
      List.rdropWhile_append_rtakeWhile
    refine ⟨String.ofList (text.toList.takeWhile isBlank),
      String.ofList ((text.toList.dropWhile isBlank).rtakeWhile isBlank), ?_, ?_, ?_⟩
    · rw [← String.toList_inj]
      simp only [trim, String.toList_append, String.toList_ofList]
      rw [List.append_assoc, inner, List.takeWhile_append_dropWhile]
    · rw [isBlankText, String.toList_ofList, List.all_eq_true]
      exact fun _ => List.mem_takeWhile_imp
    · rw [isBlankText, String.toList_ofList, List.all_eq_true]
      exact fun _ => List.mem_rtakeWhile_imp
  first := by
    intro character isFirst
    rw [trim, String.toList_ofList] at isFirst
    obtain ⟨tail, whole⟩ : dropBlankEnd (text.toList.dropWhile isBlank) <+: _ :=
      List.rdropWhile_prefix isBlank _
    have isFirstLeft : (text.toList.dropWhile isBlank).head? = some character := by
      rw [← whole, List.head?_append, isFirst, Option.some_or]
    exact isBlank_of_head?_dropWhile isFirstLeft
  last := by
    intro character isLast
    rw [trim, String.toList_ofList, dropBlankEnd, List.getLast?_reverse] at isLast
    exact isBlank_of_head?_dropWhile isLast

/-- Blanks in front are dropped up to the first character that is none. -/
theorem dropWhile_isBlank_append {blanks characters : List Char}
    (blank : ∀ character ∈ blanks, isBlank character = true)
    (first : ∀ character, characters.head? = some character → isBlank character = false) :
    (blanks ++ characters).dropWhile isBlank = characters := by
  rw [List.dropWhile_append_of_pos blank]
  cases characters with
  | nil => rfl
  | cons head rest =>
      apply List.dropWhile_cons_of_neg
      rw [first head List.head?_cons]
      exact Bool.false_ne_true

/-- What is left of a text is fixed by the text if there is anything left. -/
theorem Trims.trim_eq {text core : String} (trims : Trims text core) (notEmpty : core ≠ "") :
    trim text = core := by
  obtain ⟨⟨before, after, rfl, blankBefore, blankAfter⟩, first, last⟩ := trims
  rw [isBlankText, List.all_eq_true] at blankBefore blankAfter
  have front : (before ++ core ++ after).toList.dropWhile isBlank = core.toList ++ after.toList := by
    rw [String.toList_append, String.toList_append, List.append_assoc]
    apply dropWhile_isBlank_append blankBefore
    intro character isFirst
    cases shape : core.toList with
    | nil => exact absurd (String.toList_inj.1 (shape.trans String.toList_empty.symm)) notEmpty
    | cons head rest =>
        rw [shape, List.cons_append, List.head?_cons] at isFirst
        exact first character (by rw [shape, List.head?_cons, isFirst])
  have back : dropBlankEnd (core.toList ++ after.toList) = core.toList := by
    rw [dropBlankEnd, List.reverse_append, List.reverse_eq_iff]
    apply dropWhile_isBlank_append
    · exact fun character member => blankAfter character (List.mem_reverse.1 member)
    · intro character isLast
      exact last character (List.head?_reverse.symm.trans isLast)
  rw [trim, front, back, String.ofList_toList]

/-- Each value is entered as what `entered?` makes of it. -/
theorem entered_entered? (value : Option String) : Entered value (entered? value) := by
  cases value with
  | none => exact .nothing
  | some text =>
      rw [entered?, Option.map_some]
      by_cases nothingLeft : trim text = ""
      · rw [nothingLeft]
        exact .blank (trim_eq_empty_iff.1 nothingLeft)
      · have kept : (some (trim text)).filter (fun text => !text.isEmpty) = some (trim text) := by
          simpa [Option.filter] using nothingLeft
        rw [kept]
        exact .filled (trims_trim text) nothingLeft

/-- A value is entered in one way. -/
theorem Entered.unique {value entry other : Option String} (entered : Entered value entry)
    (otherwise : Entered value other) : entry = other := by
  have fixed : ∀ {entry}, Entered value entry → entry = entered? value := by
    rintro entry (_ | isBlank | ⟨trims, notEmpty⟩)
    · rfl
    · rw [entered?, Option.map_some, trim_eq_empty_iff.2 isBlank]
      rfl
    · rw [entered?, Option.map_some, trims.trim_eq notEmpty]
      simpa [Option.filter] using notEmpty
  exact (fixed entered).trans (fixed otherwise).symm

/-- A value is entered as what `entered?` makes of it, and as nothing else. -/
theorem entered?_eq_iff {value entry : Option String} :
    entered? value = entry ↔ Entered value entry := by
  constructor
  · rintro rfl
    exact entered_entered? value
  · exact fun entered => (entered_entered? value).unique entered

/-- What is left of a text is not blank if there is anything left: it begins with no blank. -/
theorem Trims.isBlankText_eq_false {text core : String} (trims : Trims text core)
    (notEmpty : core ≠ "") : isBlankText core = false := by
  rw [isBlankText, List.all_eq_false]
  cases shape : core.toList with
  | nil => exact absurd (String.toList_inj.1 (shape.trans String.toList_empty.symm)) notEmpty
  | cons head rest =>
      have isFirst : core.toList.head? = some head := by rw [shape, List.head?_cons]
      exact ⟨head, List.mem_cons_self, ne_true_of_eq_false (trims.first head isFirst)⟩

/-- Nothing more is taken away from what is left of a text. -/
theorem Trims.self {text core : String} (trims : Trims text core) : Trims core core where
  around := ⟨"", "", by simp, rfl, rfl⟩
  first := trims.first
  last := trims.last

/-- An entered text is never blank. -/
theorem isBlankText_of_entered? {value : Option String} {raw : String}
    (entered : entered? value = some raw) : isBlankText raw = false := by
  cases entered?_eq_iff.1 entered with
  | filled trims notEmpty => exact trims.isBlankText_eq_false notEmpty

/-- An entered text is entered again unchanged. -/
theorem entered?_of_entered? {value : Option String} {raw : String}
    (entered : entered? value = some raw) : entered? (some raw) = some raw := by
  cases entered?_eq_iff.1 entered with
  | filled trims notEmpty => exact entered?_eq_iff.2 (.filled trims.self notEmpty)

end BusinessProcess.Text
