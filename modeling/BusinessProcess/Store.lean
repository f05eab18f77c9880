/-!
# Ordered stores

A store keeps one value for each key, in the order in which the keys first came in. Attributes
of an element, rules of a registry, level overrides and the groups of a report are all stores,
and their order shows in every listing. Replacing a value keeps its place; erasing a key closes
the gap. That keys are distinct is part of the type.
-/

namespace BusinessProcess

universe u v

/-- Values under distinct keys, in the order in which the keys came in. -/
structure Store (κ : Type u) (α : Type v) where
  /-- The keys with their values, oldest first. -/
  entries : List (κ × α)
  /-- No key occurs twice. -/
  distinct : (entries.map Prod.fst).Nodup

namespace Store

variable {κ : Type u} {α : Type v}

/-- Stores are equal exactly when they list the same entries in the same order. -/
@[ext] theorem ext {left right : Store κ α} (entries : left.entries = right.entries) :
    left = right := by
  cases left
  cases right
  cases entries
  rfl

instance [DecidableEq κ] [DecidableEq α] : DecidableEq (Store κ α) := fun left right =>
  decidable_of_iff (left.entries = right.entries)
    ⟨Store.ext, fun equal => congrArg Store.entries equal⟩

/-- The store without entries. -/
def empty : Store κ α :=
  ⟨[], List.nodup_nil⟩

instance : Inhabited (Store κ α) :=
  ⟨empty⟩

/-- The keys, oldest first. -/
def keys (store : Store κ α) : List κ :=
  store.entries.map Prod.fst

/-- The values in the order of their keys. -/
def values (store : Store κ α) : List α :=
  store.entries.map Prod.snd

/-- The number of entries. -/
def size (store : Store κ α) : Nat :=
  store.entries.length

/-- Whether the store has no entry. -/
def isEmpty (store : Store κ α) : Bool :=
  store.entries.isEmpty

variable [DecidableEq κ]

/-- The value found under `key` in a list of entries. -/
def find? (key : κ) : List (κ × α) → Option α
  | [] => none
  | (name, value) :: rest => if name = key then some value else find? key rest

/-- A list of entries in which the value under `key` is what `change` makes of the present
one. A key that is not present comes last. -/
def place (key : κ) (change : Option α → α) : List (κ × α) → List (κ × α)
  | [] => [(key, change none)]
  | (name, value) :: rest =>
      if name = key then (name, change (some value)) :: rest
      else (name, value) :: place key change rest

theorem keys_place (key : κ) (change : Option α → α) (entries : List (κ × α)) :
    (place key change entries).map Prod.fst =
      if key ∈ entries.map Prod.fst then entries.map Prod.fst
      else entries.map Prod.fst ++ [key] := by
  induction entries with
  | nil => simp [place]
  | cons head rest inductionHypothesis =>
      obtain ⟨name, value⟩ := head
      by_cases same : name = key
      · simp [place, same]
      · have differs : key ≠ name := fun equal => same equal.symm
        simp only [place, same, if_false, List.map_cons, inductionHypothesis, List.mem_cons,
          differs, false_or]
        split <;> rfl

theorem find?_place (key other : κ) (change : Option α → α) (entries : List (κ × α)) :
    find? other (place key change entries) =
      if other = key then some (change (find? key entries)) else find? other entries := by
  induction entries with
  | nil =>
      by_cases same : other = key
      · simp [place, find?, same]
      · have differs : key ≠ other := fun equal => same equal.symm
        simp [place, find?, same, differs]
  | cons head rest inductionHypothesis =>
      obtain ⟨name, value⟩ := head
      by_cases atKey : name = key
      · subst atKey
        by_cases same : other = name
        · simp [place, find?, same]
        · have differs : name ≠ other := fun equal => same equal.symm
          simp [place, find?, same, differs]
      · by_cases atOther : name = other
        · subst atOther
          simp [place, find?, atKey]
        · simp [place, find?, atKey, atOther, inductionHypothesis]

/-- The value under `key`. -/
def get? (store : Store κ α) (key : κ) : Option α :=
  find? key store.entries

/-- Whether `key` has a value. -/
def contains (store : Store κ α) (key : κ) : Bool :=
  (store.get? key).isSome

/-- The store in which the value under `key` is what `change` makes of the present one. A key
that is not present comes last. -/
def upsert (store : Store κ α) (key : κ) (change : Option α → α) : Store κ α where
  entries := place key change store.entries
  distinct := by
    have distinct := store.distinct
    rw [keys_place]
    split
    · exact distinct
    · next absent =>
        exact List.nodup_append.2 ⟨distinct, by simp, fun name member other only => by
          rw [List.mem_singleton.1 only]
          exact fun same => absent (same ▸ member)⟩

/-- The store with `value` under `key`, in the place of the value it replaces. -/
def insert (store : Store κ α) (key : κ) (value : α) : Store κ α :=
  store.upsert key fun _ => value

/-- The store without `key`. -/
def erase (store : Store κ α) (key : κ) : Store κ α where
  entries := store.entries.filter fun entry => entry.1 ≠ key
  distinct := (List.filter_sublist.map Prod.fst).nodup store.distinct

/-- The pairs put in one after the other: a repeated key keeps its first place and takes its
last value. -/
def ofList (pairs : List (κ × α)) : Store κ α :=
  pairs.foldl (fun store pair => store.insert pair.1 pair.2) empty

/-- A key is present exactly if it has a value. -/
theorem find?_isSome_iff (key : κ) (entries : List (κ × α)) :
    (find? key entries).isSome = true ↔ key ∈ entries.map Prod.fst := by
  induction entries with
  | nil => simp [find?]
  | cons head rest inductionHypothesis =>
      obtain ⟨name, value⟩ := head
      by_cases same : name = key
      · simp [find?, same]
      · have differs : key ≠ name := fun equal => same equal.symm
        simp only [find?, same, if_false, inductionHypothesis, List.map_cons, List.mem_cons,
          differs, false_or]

theorem mem_keys_iff {store : Store κ α} {key : κ} :
    key ∈ store.keys ↔ store.contains key = true :=
  (find?_isSome_iff key store.entries).symm

theorem mem_keys_of_get? {store : Store κ α} {key : κ} {value : α}
    (found : store.get? key = some value) : key ∈ store.keys :=
  mem_keys_iff.2 (by simp [contains, found])

/-- A key changed by `upsert` holds what `change` made; every other key is as before. -/
theorem get?_upsert (store : Store κ α) (key other : κ) (change : Option α → α) :
    (store.upsert key change).get? other =
      if other = key then some (change (store.get? key)) else store.get? other :=
  find?_place key other change store.entries

/-- A present key keeps its place and an absent one comes last. -/
theorem keys_upsert (store : Store κ α) (key : κ) (change : Option α → α) :
    (store.upsert key change).keys =
      if key ∈ store.keys then store.keys else store.keys ++ [key] :=
  keys_place key change store.entries

theorem get?_insert (store : Store κ α) (key other : κ) (value : α) :
    (store.insert key value).get? other =
      if other = key then some value else store.get? other :=
  store.get?_upsert key other fun _ => value

theorem keys_insert (store : Store κ α) (key : κ) (value : α) :
    (store.insert key value).keys =
      if key ∈ store.keys then store.keys else store.keys ++ [key] :=
  store.keys_upsert key fun _ => value

theorem find?_filter_ne (key other : κ) (entries : List (κ × α)) :
    find? other (entries.filter fun entry => entry.1 ≠ key) =
      if other = key then none else find? other entries := by
  induction entries with
  | nil => simp [find?]
  | cons head rest inductionHypothesis =>
      obtain ⟨name, value⟩ := head
      by_cases erased : name = key
      · subst erased
        rw [List.filter_cons_of_neg (by simp), inductionHypothesis]
        by_cases same : other = name
        · simp [same]
        · have differs : name ≠ other := fun equal => same equal.symm
          simp [find?, same, differs]
      · rw [List.filter_cons_of_pos (by simpa using erased)]
        by_cases found : name = other
        · subst found
          simp [find?, erased]
        · rw [find?, if_neg found, inductionHypothesis, find?, if_neg found]

/-- An erased key has no value; every other key is as before. -/
theorem get?_erase (store : Store κ α) (key other : κ) :
    (store.erase key).get? other = if other = key then none else store.get? other :=
  find?_filter_ne key other store.entries

/-- The keys that are left keep their order. -/
theorem keys_erase (store : Store κ α) (key : κ) :
    (store.erase key).keys = store.keys.filter (· ≠ key) := by
  simp only [keys, erase, List.filter_map, Function.comp_def]

end Store

end BusinessProcess
