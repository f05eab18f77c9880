import BusinessProcess.Store
import Mathlib.Data.List.Induction

/-!
# Entries of stores

What a store lists and what is found in it are the same. A store that is filled by changing the
values of keys, one after the other, lists the keys in the order in which they first came up.
-/

namespace BusinessProcess.Store

variable {κ α : Type} [DecidableEq κ] {store : Store κ α} {key : κ} {value : α}

/-- What is found under a key is listed there. -/
theorem mem_entries_of_get? (found : store.get? key = some value) :
    (key, value) ∈ store.entries := by
  have listed : ∀ entries : List (κ × α), find? key entries = some value →
      (key, value) ∈ entries := by
    intro entries
    induction entries with
    | nil => exact fun none => nomatch none
    | cons head rest inductionHypothesis =>
        obtain ⟨name, held⟩ := head
        intro present
        by_cases same : name = key
        · simp only [find?, same, if_true, Option.some.injEq] at present
          simp [same, present]
        · simp only [find?, same, if_false] at present
          exact List.mem_cons_of_mem _ (inductionHypothesis present)
  exact listed store.entries found

/-- What is found under a key is one of the values. -/
theorem mem_values_of_get? (found : store.get? key = some value) : value ∈ store.values :=
  List.mem_map.2 ⟨_, mem_entries_of_get? found, rfl⟩

/-- Under a key is found what is listed there. -/
theorem get?_of_mem_entries (listed : (key, value) ∈ store.entries) :
    store.get? key = some value := by
  have found : ∀ entries : List (κ × α), (entries.map Prod.fst).Nodup → (key, value) ∈ entries →
      find? key entries = some value := by
    intro entries
    induction entries with
    | nil => exact fun _ none => nomatch none
    | cons head rest inductionHypothesis =>
        obtain ⟨name, held⟩ := head
        intro distinct present
        obtain ⟨fresh, distinctRest⟩ := List.nodup_cons.1 distinct
        rcases List.mem_cons.1 present with isHead | later
        · cases isHead
          simp [find?]
        · have differs : name ≠ key := by
            rintro rfl
            exact fresh (List.mem_map.2 ⟨_, later, rfl⟩)
          simp only [find?, differs, if_false, inductionHypothesis distinctRest later]
  exact found store.entries store.distinct listed

/-- What a store lists after an insertion is the new entry or was listed before. -/
theorem mem_entries_insert {entry : κ × α} (listed : entry ∈ (store.insert key value).entries) :
    entry = (key, value) ∨ entry ∈ store.entries := by
  have placed : ∀ entries : List (κ × α), entry ∈ place key (fun _ => value) entries →
      entry = (key, value) ∨ entry ∈ entries := by
    intro entries
    induction entries with
    | nil => exact fun isAdded => .inl (List.mem_singleton.1 isAdded)
    | cons head rest inductionHypothesis =>
        obtain ⟨name, held⟩ := head
        intro found
        by_cases same : name = key
        · simp only [place, same, if_true, List.mem_cons] at found ⊢
          exact found.imp_right .inr
        · simp only [place, same, if_false, List.mem_cons] at found ⊢
          rcases found with isHead | later
          · exact .inr (.inl isHead)
          · exact (inductionHypothesis later).imp_right .inr
  exact placed store.entries listed

/-- Inserting under a present key replaces the value there and leaves the others in their places. -/
theorem entries_insert_of_mem (present : key ∈ store.keys) (value : α) :
    (store.insert key value).entries =
      store.entries.map fun entry => if entry.1 = key then (entry.1, value) else entry := by
  have replaced : ∀ entries : List (κ × α), (entries.map Prod.fst).Nodup →
      key ∈ entries.map Prod.fst → place key (fun _ => value) entries =
        entries.map fun entry => if entry.1 = key then (entry.1, value) else entry := by
    intro entries
    induction entries with
    | nil => exact fun _ none => nomatch none
    | cons head rest inductionHypothesis =>
        obtain ⟨name, held⟩ := head
        intro distinct listed
        obtain ⟨fresh, distinctRest⟩ := List.nodup_cons.1 distinct
        by_cases same : name = key
        · subst same
          have others : rest.map (fun entry => if entry.1 = name then (entry.1, value) else entry) =
              rest := by
            refine (List.map_congr_left fun entry member => ?_).trans (List.map_id rest)
            have differs : entry.1 ≠ name := fun again =>
              fresh (List.mem_map.2 ⟨entry, member, again⟩)
            rw [if_neg differs]
            rfl
          simp [place, others]
        · have later : key ∈ rest.map Prod.fst :=
            (List.mem_cons.1 listed).resolve_left (Ne.symm same)
          simp only [place, same, if_false, List.map_cons,
            inductionHypothesis distinctRest later]
  exact replaced store.entries store.distinct present

/-- Inserting under an absent key adds an entry at the end. -/
theorem entries_insert_of_not_mem (absent : key ∉ store.keys) (value : α) :
    (store.insert key value).entries = store.entries ++ [(key, value)] := by
  have added : ∀ entries : List (κ × α), key ∉ entries.map Prod.fst →
      place key (fun _ => value) entries = entries ++ [(key, value)] := by
    intro entries
    induction entries with
    | nil => exact fun _ => rfl
    | cons head rest inductionHypothesis =>
        obtain ⟨name, held⟩ := head
        intro notListed
        obtain ⟨differs, notLater⟩ := not_or.1 (mt List.mem_cons.2 notListed)
        simp only [place, if_neg (Ne.symm differs), inductionHypothesis notLater, List.cons_append]
  exact added store.entries absent

/-- The entries are the keys with what is found under them. -/
theorem entries_eq_map_keys (store : Store κ α) (absent : α) :
    store.entries = store.keys.map fun key => (key, (store.get? key).getD absent) := by
  rw [keys, List.map_map]
  symm
  refine (List.map_congr_left fun entry listed => ?_).trans (List.map_id store.entries)
  simp only [Function.comp_apply, get?_of_mem_entries listed, Option.getD_some, id_eq]

/-! ## Filling a store -/

/-- One more item is a first occurrence exactly if it has not come up before. -/
theorem eraseDups_concat (items : List κ) (item : κ) :
    (items ++ [item]).eraseDups =
      if item ∈ items then items.eraseDups else items.eraseDups ++ [item] := by
  rw [List.eraseDups_append, List.removeAll]
  by_cases known : item ∈ items
  · simp [known]
  · simp [known, List.eraseDups_cons]

/-- A store filled by changing the values of keys lists the keys in the order in which they first
came up. -/
theorem keys_foldl_upsert {β : Type} (key : β → κ) (change : β → Option α → α) (items : List β) :
    (items.foldl (fun store item => store.upsert (key item) (change item))
      (empty : Store κ α)).keys = (items.map key).eraseDups := by
  induction items using List.reverseRecOn with
  | nil => rfl
  | append_singleton items item inductionHypothesis =>
      rw [List.foldl_append, List.foldl_cons, List.foldl_nil, keys_upsert, inductionHypothesis,
        List.map_append, List.map_singleton, eraseDups_concat]
      simp only [List.mem_eraseDups]

/-- A repeated key keeps its first place. -/
theorem keys_ofList (pairs : List (κ × α)) :
    (ofList pairs).keys = (pairs.map Prod.fst).eraseDups :=
  keys_foldl_upsert Prod.fst (fun pair _ => pair.2) pairs

/-- A repeated key takes its last value. -/
theorem get?_ofList (pairs : List (κ × α)) (key : κ) :
    (ofList pairs).get? key = (pairs.filter (·.1 = key)).getLast?.map Prod.snd := by
  induction pairs using List.reverseRecOn with
  | nil => rfl
  | append_singleton pairs pair inductionHypothesis =>
      rw [ofList, List.foldl_append, List.foldl_cons, List.foldl_nil, get?_insert, ← ofList,
        inductionHypothesis, List.filter_append]
      by_cases same : pair.1 = key
      · simp [same]
      · simp [same, Ne.symm same]

/-- Pairs under distinct keys are the entries of their store. -/
theorem entries_ofList {pairs : List (κ × α)} (distinct : (pairs.map Prod.fst).Nodup) :
    (ofList pairs).entries = pairs := by
  induction pairs using List.reverseRecOn with
  | nil => rfl
  | append_singleton pairs pair inductionHypothesis =>
      rw [List.map_append, List.nodup_append] at distinct
      obtain ⟨distinctBefore, -, apart⟩ := distinct
      have entriesBefore := inductionHypothesis distinctBefore
      have absent : pair.1 ∉ (ofList pairs).keys := by
        rw [keys, entriesBefore]
        exact fun listed => apart _ listed _ List.mem_cons_self rfl
      rw [ofList, List.foldl_append, List.foldl_cons, List.foldl_nil, ← ofList,
        entries_insert_of_not_mem absent, entriesBefore]

end BusinessProcess.Store
