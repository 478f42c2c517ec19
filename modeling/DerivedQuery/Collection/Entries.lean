/-!
# Entries in key order

A finite map kept as the list of its entries in ascending order of keys. Looking up is `List.lookup`;
`insert` and `erase` keep the order, and `ofList` builds a map from entries in any order, where a later
entry replaces an earlier one with the same key.
-/

namespace DerivedQuery

/-- Pairs of a key and its value. -/
abbrev Entries (κ α : Type) := List (κ × α)

namespace Entries

variable {κ α : Type} [DecidableEq κ] [LT κ] [DecidableLT κ]

/-- Puts a value under a key, in place of the value that the key had before. -/
def insert (key : κ) (value : α) : Entries κ α → Entries κ α
  | [] => [(key, value)]
  | (k, v) :: rest =>
    if key = k then (key, value) :: rest
    else if key < k then (key, value) :: (k, v) :: rest
    else (k, v) :: insert key value rest

omit [LT κ] [DecidableLT κ] in
/-- Drops a key and its value. -/
def erase (key : κ) (entries : Entries κ α) : Entries κ α := entries.filter (·.1 ≠ key)

/-- The map with the given entries, of which the last one under each key counts. -/
def ofList (entries : List (κ × α)) : Entries κ α :=
  entries.foldl (fun map entry => map.insert entry.1 entry.2) []

/-- What has been put under a key is found there. -/
theorem lookup_insert_self (key : κ) (value : α) (entries : Entries κ α) :
    (insert key value entries).lookup key = some value := by
  induction entries with
  | nil => simp [insert]
  | cons entry rest ih =>
    obtain ⟨k, v⟩ := entry
    by_cases h : key = k
    · simp [insert, h]
    · by_cases hlt : key < k
      · simp [insert, h, hlt]
      · simp [insert, h, hlt, List.lookup_cons, beq_false_of_ne h, ih]

/-- Putting a value under a key leaves all other keys alone. -/
theorem lookup_insert_of_ne {key k : κ} (h : k ≠ key) (value : α) (entries : Entries κ α) :
    (insert key value entries).lookup k = entries.lookup k := by
  induction entries with
  | nil => simp [insert, List.lookup_cons, beq_false_of_ne h]
  | cons entry rest ih =>
    obtain ⟨l, v⟩ := entry
    by_cases hl : key = l
    · subst hl
      simp [insert, List.lookup_cons, beq_false_of_ne h]
    · by_cases hlt : key < l
      · simp [insert, hl, hlt, List.lookup_cons, beq_false_of_ne h]
      · simp only [insert, hl, hlt, ↓reduceIte, List.lookup_cons, ih]

omit [LT κ] [DecidableLT κ] in
/-- A dropped key is not found. -/
theorem lookup_erase_self (key : κ) (entries : Entries κ α) :
    (erase key entries).lookup key = none := by
  induction entries with
  | nil => rfl
  | cons entry rest ih =>
    obtain ⟨k, v⟩ := entry
    by_cases h : k = key
    · simpa [erase, h] using ih
    · simpa [erase, h, List.lookup_cons, beq_false_of_ne (Ne.symm h)] using ih

omit [LT κ] [DecidableLT κ] in
/-- Dropping a key leaves all other keys alone. -/
theorem lookup_erase_of_ne {key k : κ} (h : k ≠ key) (entries : Entries κ α) :
    (erase key entries).lookup k = entries.lookup k := by
  induction entries with
  | nil => rfl
  | cons entry rest ih =>
    obtain ⟨l, v⟩ := entry
    by_cases hl : l = key
    · subst hl
      simpa [erase, List.lookup_cons, beq_false_of_ne h] using ih
    · by_cases hk : k = l
      · simp [erase, hl, hk]
      · simpa [erase, hl, List.lookup_cons, beq_false_of_ne hk] using ih

/-- The keys ascend, so each occurs once. -/
def Ascending (entries : Entries κ α) : Prop := entries.Pairwise (·.1 < ·.1)

end Entries

end DerivedQuery
