/-!
# Cutting texts at a mark

Durations, ids and cycles are each read by cutting a text at the first occurrence of one
character. This module holds that cut, the test for an ending, and the law that fixes each.
-/

namespace BusinessProcess.Text

/-- The characters before and after the first `mark`, if there is one. -/
def cutAt? (mark : Char) : List Char → Option (List Char × List Char)
  | [] => none
  | head :: rest =>
      if head = mark then some ([], rest)
      else (cutAt? mark rest).map fun (before, after) => (head :: before, after)

/-- The cut puts the text back together around the mark, and nothing before it is the mark. -/
theorem cutAt?_eq_some_iff {mark : Char} {characters before after : List Char} :
    cutAt? mark characters = some (before, after) ↔
      characters = before ++ mark :: after ∧ mark ∉ before := by
  induction characters generalizing before with
  | nil => simp [cutAt?]
  | cons head rest inductionHypothesis =>
      by_cases same : head = mark
      · subst same
        cases before with
        | nil => simp [cutAt?, eq_comm]
        | cons first others =>
            simp only [cutAt?, if_true, Option.some.injEq, Prod.mk.injEq, List.cons_append,
              List.cons.injEq, List.mem_cons, not_or]
            constructor
            · rintro ⟨impossible, _⟩
              cases impossible
            · rintro ⟨⟨sameFirst, _⟩, different, _⟩
              exact absurd sameFirst different
      · cases before with
        | nil => simp [cutAt?, same]
        | cons first others =>
            simp only [cutAt?, same, if_false, Option.map_eq_some_iff, Prod.exists,
              Prod.mk.injEq, List.cons.injEq, List.cons_append, List.mem_cons, not_or]
            constructor
            · rintro ⟨left, right, cut, ⟨rfl, rfl⟩, rfl⟩
              obtain ⟨whole, absent⟩ := inductionHypothesis.1 cut
              exact ⟨⟨rfl, whole⟩, fun equal => same equal.symm, absent⟩
            · rintro ⟨⟨rfl, whole⟩, _, absent⟩
              exact ⟨others, after, inductionHypothesis.2 ⟨whole, absent⟩, ⟨rfl, rfl⟩, rfl⟩

/-- No cut is made exactly when the mark does not occur. -/
theorem cutAt?_eq_none_iff {mark : Char} {characters : List Char} :
    cutAt? mark characters = none ↔ mark ∉ characters := by
  induction characters with
  | nil => simp [cutAt?]
  | cons head rest inductionHypothesis =>
      by_cases same : head = mark
      · simp [cutAt?, same]
      · have differs : mark ≠ head := fun equal => same equal.symm
        simp [cutAt?, same, differs, inductionHypothesis]

/-- The characters before a final `mark`, if the text ends with it. -/
def beforeFinal? (mark : Char) (characters : List Char) : Option (List Char) :=
  if characters.getLast? = some mark then some characters.dropLast else none

theorem beforeFinal?_eq_some_iff {mark : Char} {characters before : List Char} :
    beforeFinal? mark characters = some before ↔ characters = before ++ [mark] := by
  unfold beforeFinal?
  constructor
  · intro cut
    split at cut
    next final =>
      obtain ⟨start, rfl⟩ := List.getLast?_eq_some_iff.1 final
      simp at cut
      simp [cut]
    next => simp at cut
  · rintro rfl
    simp

/-- Whether a text ends with `ending`. -/
def endsWith (text ending : String) : Bool :=
  ending.toList.isSuffixOf text.toList

theorem endsWith_iff {text ending : String} :
    endsWith text ending = true ↔ ∃ start, text = start ++ ending := by
  simp only [endsWith, List.isSuffixOf_iff_suffix]
  constructor
  · rintro ⟨start, whole⟩
    exact ⟨String.ofList start, by rw [← String.toList_inj]; simp [whole]⟩
  · rintro ⟨start, rfl⟩
    exact ⟨start.toList, by simp⟩

end BusinessProcess.Text
