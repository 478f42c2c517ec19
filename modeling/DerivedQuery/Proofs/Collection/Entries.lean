import Mathlib.Order.RelClasses
import DerivedQuery.Collection.Entries

/-!
# Order of entries

`insert` and `erase` keep the keys ascending, and in ascending entries a key has one value: the one that
`lookup` finds. So putting the value of a key there again changes nothing.
-/

namespace DerivedQuery

namespace Entries

variable {κ α : Type} [DecidableEq κ] [LT κ] [DecidableLT κ]

/-! ## Members -/

omit [LT κ] [DecidableLT κ] in
theorem mem_of_lookup_eq_some {key : κ} {value : α} {entries : Entries κ α}
    (h : entries.lookup key = some value) : (key, value) ∈ entries := by
  obtain ⟨front, back, hsplit, -⟩ := List.lookup_eq_some_iff.mp h
  rw [hsplit]
  exact List.mem_append_right front List.mem_cons_self

theorem eq_or_mem_of_mem_insert {key : κ} {value : α} {entry : κ × α} {entries : Entries κ α}
    (h : entry ∈ insert key value entries) : entry = (key, value) ∨ entry ∈ entries := by
  induction entries with
  | nil => exact .inl (List.mem_singleton.mp h)
  | cons first rest ih =>
    rw [insert] at h
    split at h
    · rcases List.mem_cons.mp h with rfl | hrest
      · exact .inl rfl
      · exact .inr (List.mem_cons_of_mem _ hrest)
    · split at h
      · exact (List.mem_cons.mp h).imp_right id
      · rcases List.mem_cons.mp h with rfl | hrest
        · exact .inr List.mem_cons_self
        · exact (ih hrest).imp_right (List.mem_cons_of_mem _)

/-- Only the last value that is put under a key counts. -/
theorem insert_insert (key : κ) (value other : α) (entries : Entries κ α) :
    insert key value (insert key other entries) = insert key value entries := by
  induction entries with
  | nil => simp only [insert, ↓reduceIte]
  | cons first rest ih =>
    obtain ⟨k, v⟩ := first
    by_cases hkey : key = k
    · simp only [insert, hkey, ↓reduceIte]
    · by_cases hlt : key < k
      · simp only [insert, hkey, hlt, ↓reduceIte]
      · simp only [insert, hkey, hlt, ↓reduceIte, ih]

/-- Behind a change of one key, that key has the new value and all others have what they had. -/
theorem lookup_insert (key k : κ) (value : α) (entries : Entries κ α) :
    (insert key value entries).lookup k = if k = key then some value else entries.lookup k := by
  split
  · next hkey => rw [hkey, lookup_insert_self]
  · next hkey => rw [lookup_insert_of_ne hkey]

omit [LT κ] [DecidableLT κ] in
theorem erase_cons_self (key : κ) (value : α) (entries : Entries κ α) :
    erase key ((key, value) :: entries) = erase key entries := by
  simp [erase]

omit [LT κ] [DecidableLT κ] in
theorem erase_cons_of_ne {key k : κ} (h : k ≠ key) (value : α) (entries : Entries κ α) :
    erase key ((k, value) :: entries) = (k, value) :: erase key entries := by
  simp [erase, h]

omit [LT κ] [DecidableLT κ] in
/-- Dropping a key that is not there changes nothing. -/
theorem erase_of_lookup_eq_none {key : κ} {entries : Entries κ α}
    (h : entries.lookup key = none) : erase key entries = entries := by
  refine List.filter_eq_self.mpr fun entry hentry => ?_
  have hne := bne_iff_ne.mp (List.lookup_eq_none_iff.mp h entry hentry)
  exact decide_eq_true (Ne.symm hne)

omit [LT κ] [DecidableLT κ] in
theorem erase_erase (key : κ) (entries : Entries κ α) :
    erase key (erase key entries) = erase key entries :=
  erase_of_lookup_eq_none (lookup_erase_self key entries)

omit [LT κ] [DecidableLT κ] in
/-- Where no two entries have one key, each is found under its own. -/
theorem lookup_eq_some_iff_mem {entries : Entries κ α} (h : (entries.map (·.1)).Nodup) {key : κ}
    {value : α} : entries.lookup key = some value ↔ (key, value) ∈ entries := by
  refine ⟨mem_of_lookup_eq_some, fun hmem => List.lookup_eq_some_iff.mpr ?_⟩
  obtain ⟨front, back, hsplit⟩ := List.append_of_mem hmem
  refine ⟨front, back, hsplit, fun entry hentry => bne_iff_ne.mpr fun hkey => ?_⟩
  rw [hsplit, List.map_append, List.map_cons] at h
  have hfresh := (List.nodup_append.mp h).2.2 entry.1 (List.mem_map_of_mem hentry) key
    List.mem_cons_self
  exact hfresh hkey.symm

theorem lookup_foldl_insert (key : κ) (entries map : Entries κ α) :
    (entries.foldl (fun map entry => map.insert entry.1 entry.2) map).lookup key
      = (entries.reverse.lookup key).or (map.lookup key) := by
  induction entries generalizing map with
  | nil => rfl
  | cons entry rest ih =>
    rw [List.foldl_cons, ih, lookup_insert, List.reverse_cons, List.lookup_append, List.lookup_cons]
    by_cases hkey : key = entry.1
    · simp [hkey]
    · simp [hkey, beq_false_of_ne hkey]

/-- The last of the entries of a key counts. -/
theorem lookup_ofList (key : κ) (entries : List (κ × α)) :
    (ofList entries).lookup key = entries.reverse.lookup key := by
  rw [ofList, lookup_foldl_insert, List.lookup_nil, Option.or_none]

/-! ## Ascending keys -/

instance (entries : Entries κ α) : Decidable (Ascending entries) :=
  inferInstanceAs (Decidable (entries.Pairwise fun a b => a.1 < b.1))

omit [DecidableEq κ] [DecidableLT κ] in
theorem ascending_nil : Ascending ([] : Entries κ α) := .nil

omit [DecidableLT κ] in
theorem Ascending.erase {entries : Entries κ α} (h : Ascending entries) (key : κ) :
    Ascending (erase key entries) :=
  List.Pairwise.filter _ h

section StrictOrder

variable [IsStrictTotalOrder κ (· < ·)]

theorem Ascending.insert {entries : Entries κ α} (h : Ascending entries) (key : κ) (value : α) :
    Ascending (insert key value entries) := by
  induction entries with
  | nil => exact List.pairwise_singleton _ _
  | cons first rest ih =>
    obtain ⟨hfirst, hrest⟩ := List.pairwise_cons.mp h
    rw [Entries.insert]
    split
    · next hkey =>
      subst hkey
      exact List.pairwise_cons.mpr ⟨hfirst, hrest⟩
    · next hkey =>
      split
      · next hlt =>
        refine List.pairwise_cons.mpr ⟨fun entry hentry => ?_, h⟩
        rcases List.mem_cons.mp hentry with rfl | hentry
        · exact hlt
        · exact trans_of (· < ·) hlt (hfirst entry hentry)
      · next hlt =>
        -- The key comes behind the first one, and so does what is put in.
        have hbehind : first.1 < key := by
          rcases trichotomous_of (· < ·) key first.1 with h | h | h
          · exact absurd h hlt
          · exact absurd h hkey
          · exact h
        refine List.pairwise_cons.mpr ⟨fun entry hentry => ?_, ih hrest⟩
        rcases eq_or_mem_of_mem_insert hentry with rfl | hentry
        · exact hbehind
        · exact hfirst entry hentry

theorem ascending_ofList (entries : List (κ × α)) : Ascending (ofList entries) := by
  have hfold : ∀ map : Entries κ α, Ascending map →
      Ascending (entries.foldl (fun map entry => map.insert entry.1 entry.2) map) := by
    induction entries with
    | nil => exact fun _ h => h
    | cons entry rest ih => exact fun map h => ih _ (h.insert entry.1 entry.2)
  exact hfold [] ascending_nil

omit [DecidableEq κ] [DecidableLT κ] in
theorem Ascending.nodup {entries : Entries κ α} (h : Ascending entries) : entries.Nodup := by
  refine List.Pairwise.imp ?_ h
  rintro a _ hlt rfl
  exact irrefl_of (· < ·) a.1 hlt

omit [DecidableEq κ] [DecidableLT κ] in
theorem Ascending.nodup_keys {entries : Entries κ α} (h : Ascending entries) :
    (entries.map (·.1)).Nodup := by
  refine List.pairwise_map.mpr (List.Pairwise.imp ?_ h)
  intro a b hlt heq
  exact irrefl_of (· < ·) a.1 (heq ▸ hlt)

omit [DecidableLT κ] in
/-- In ascending entries a key has one value. -/
theorem Ascending.lookup_of_mem {entries : Entries κ α} (h : Ascending entries) {key : κ} {value : α}
    (hmem : (key, value) ∈ entries) : entries.lookup key = some value := by
  induction entries with
  | nil => cases hmem
  | cons first rest ih =>
    obtain ⟨hfirst, hrest⟩ := List.pairwise_cons.mp h
    rcases List.mem_cons.mp hmem with heq | hmem
    · rw [← heq, List.lookup_cons_self]
    · have hne : key ≠ first.1 := fun heq =>
        irrefl_of (· < ·) key (heq ▸ hfirst (key, value) hmem)
      rw [List.lookup_cons, beq_false_of_ne hne]
      exact ih hrest hmem

omit [DecidableLT κ] in
/-- Ascending entries are known by what is found in them. -/
theorem Ascending.ext {entries others : Entries κ α} (h : Ascending entries)
    (h' : Ascending others) (hlookup : ∀ key, entries.lookup key = others.lookup key) :
    entries = others := by
  have hmem : ∀ entry, entry ∈ entries ↔ entry ∈ others := by
    intro entry
    constructor
    · intro hentry
      exact mem_of_lookup_eq_some ((hlookup entry.1).symm.trans (h.lookup_of_mem hentry))
    · intro hentry
      exact mem_of_lookup_eq_some ((hlookup entry.1).trans (h'.lookup_of_mem hentry))
  have hperm : entries.Perm others :=
    (List.perm_ext_iff_of_nodup h.nodup h'.nodup).mpr hmem
  exact hperm.eq_of_pairwise (fun a b _ _ hab hba => absurd hba (asymm_of (· < ·) hab)) h h'

/-- Entries of different keys are put in order, whatever order they come in. -/
theorem ofList_eq_of_perm {entries others : Entries κ α} (h : Ascending others)
    (hperm : entries.Perm others) : ofList entries = others := by
  refine (ascending_ofList entries).ext h fun key => ?_
  have hreverse : entries.reverse.Perm others := entries.reverse_perm.trans hperm
  have hkeys : (entries.reverse.map (·.1)).Nodup :=
    (hreverse.map _).nodup_iff.mpr h.nodup_keys
  refine Option.ext fun value => ?_
  rw [lookup_ofList, lookup_eq_some_iff_mem hkeys, lookup_eq_some_iff_mem h.nodup_keys,
    hreverse.mem_iff]

/-- The order in which two keys are put does not matter. -/
theorem Ascending.insert_comm {entries : Entries κ α} (h : Ascending entries) {key other : κ}
    (hne : key ≠ other) (value otherValue : α) :
    Entries.insert key value (Entries.insert other otherValue entries)
      = Entries.insert other otherValue (Entries.insert key value entries) := by
  refine ((h.insert _ _).insert _ _).ext ((h.insert _ _).insert _ _) fun k => ?_
  simp only [lookup_insert]
  by_cases hkey : k = key
  · rw [if_pos hkey, if_neg (hkey ▸ hne), if_pos hkey]
  · rw [if_neg hkey, if_neg hkey]

/-- Putting the value of a key there again changes nothing. -/
theorem Ascending.insert_of_lookup {entries : Entries κ α} (h : Ascending entries) {key : κ}
    {value : α} (hvalue : entries.lookup key = some value) :
    Entries.insert key value entries = entries := by
  induction entries with
  | nil => cases hvalue
  | cons first rest ih =>
    obtain ⟨k, v⟩ := first
    obtain ⟨hfirst, hrest⟩ := List.pairwise_cons.mp h
    by_cases hkey : key = k
    · subst hkey
      rw [List.lookup_cons_self, Option.some.injEq] at hvalue
      rw [Entries.insert, if_pos rfl, hvalue]
    · rw [List.lookup_cons, beq_false_of_ne hkey] at hvalue
      have hbehind : k < key := hfirst _ (mem_of_lookup_eq_some hvalue)
      have hlt : ¬key < k := asymm_of (· < ·) hbehind
      rw [Entries.insert, if_neg hkey, if_neg hlt, ih hrest hvalue]

/-- Behind a change of one key there is one entry more than without the key. -/
theorem Ascending.length_insert {entries : Entries κ α} (h : Ascending entries) (key : κ) (value : α) :
    (Entries.insert key value entries).length = (Entries.erase key entries).length + 1 := by
  induction entries with
  | nil => rfl
  | cons first rest ih =>
    obtain ⟨k, v⟩ := first
    obtain ⟨hfirst, hrest⟩ := List.pairwise_cons.mp h
    -- What comes behind the place of the key does not have it.
    have hbehind : ¬k < key → Entries.erase key rest = rest := by
      intro hle
      refine erase_of_lookup_eq_none (Option.eq_none_iff_forall_ne_some.mpr fun value hvalue => ?_)
      exact hle (hfirst _ (mem_of_lookup_eq_some hvalue))
    by_cases hkey : key = k
    · subst hkey
      rw [erase_cons_self, hbehind (irrefl_of (· < ·) key), Entries.insert, if_pos rfl,
        List.length_cons]
    · rw [erase_cons_of_ne (Ne.symm hkey), Entries.insert, if_neg hkey]
      by_cases hlt : key < k
      · rw [hbehind (asymm_of (· < ·) hlt), if_pos hlt, List.length_cons]
      · rw [if_neg hlt, List.length_cons, ih hrest, List.length_cons]

/-- A key that is there is that of one entry. -/
theorem Ascending.length_erase {entries : Entries κ α} (h : Ascending entries) {key : κ} {value : α}
    (hvalue : entries.lookup key = some value) :
    (Entries.erase key entries).length + 1 = entries.length := by
  rw [← h.length_insert key value, h.insert_of_lookup hvalue]

end StrictOrder

end Entries

end DerivedQuery
