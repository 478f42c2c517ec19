import Mathlib.Data.List.Nodup
import Mathlib.Data.String.Basic
import DerivedQuery.Store.Memory
import DerivedQuery.Proofs.Collection.Entries

/-!
# What a store in memory can become

`MemoryStore.Reachable` says what collections and calls make of an empty store. All of it is sound
(`MemoryStore.Reachable.sound`): collections ascend by name and documents by key, and a document is kept
under the key that can be read from it (`MemoryCollection.keyOf?`). A document is removed by its key
alone, so this is what a removal has to know.
-/

namespace DerivedQuery

namespace DocumentKey

variable {a b c : DocumentKey}

theorem lt_iff : a < b ↔ a.partition < b.partition ∨ (a.partition = b.partition ∧ a.id < b.id) :=
  .rfl

instance : IsStrictTotalOrder DocumentKey (· < ·) where
  irrefl a h := by
    rcases lt_iff.mp h with h | ⟨-, h⟩
    · exact lt_irrefl _ h
    · exact lt_irrefl _ h
  trans a b c hab hbc := by
    rw [lt_iff] at hab hbc ⊢
    rcases hab with hab | ⟨heq, hab⟩
    · rcases hbc with hbc | ⟨heq', hbc⟩
      · exact .inl (lt_trans hab hbc)
      · exact .inl (heq' ▸ hab)
    · rcases hbc with hbc | ⟨heq', hbc⟩
      · exact .inl (heq ▸ hbc)
      · exact .inr ⟨heq.trans heq', lt_trans hab hbc⟩
  trichotomous a b hab hba := by
    rw [lt_iff, not_or, not_and] at hab hba
    obtain ⟨hpartition, hid⟩ := hab
    obtain ⟨hpartition', hid'⟩ := hba
    have hsame : a.partition = b.partition :=
      le_antisymm (not_lt.mp hpartition') (not_lt.mp hpartition)
    have hsame' : a.id = b.id :=
      le_antisymm (not_lt.mp (hid' hsame.symm)) (not_lt.mp (hid hsame))
    cases a
    cases b
    cases hsame
    cases hsame'
    rfl

end DocumentKey

namespace MemoryCollection

/-- The text of the partition that a document belongs to: of its value in the field of the partition,
which is not `null`. -/
def textOf? (collection : MemoryCollection) (document : Document) : Option String :=
  match collection.partitionField with
  | none => some ""
  | some field => ((document.field? field).filter (!·.isNull)).map partitionText

/-- The key that can be read from a document. -/
def keyOf? (collection : MemoryCollection) (document : Document) : Option DocumentKey := do
  let text ← collection.textOf? document
  let id ← (document.get? idField).bind Document.idText?
  some ⟨text, id⟩

theorem keyOf?_eq_some_iff {collection : MemoryCollection} {document : Document}
    {key : DocumentKey} :
    collection.keyOf? document = some key ↔
      collection.textOf? document = some key.partition ∧
        (document.get? idField).bind Document.idText? = some key.id := by
  unfold keyOf?
  constructor
  · intro h
    obtain ⟨text, htext, h⟩ := Option.bind_eq_some_iff.mp h
    obtain ⟨id, hid, ⟨⟩⟩ := Option.bind_eq_some_iff.mp h
    exact ⟨htext, hid⟩
  · rintro ⟨htext, hid⟩
    rw [htext, hid]
    rfl

/-- Documents ascend by key, and each is kept under its own key. -/
structure Sound (collection : MemoryCollection) : Prop where
  ascending : collection.documents.Ascending
  keyed : ∀ entry ∈ collection.documents, collection.keyOf? entry.2 = some entry.1

namespace Sound

variable {collection : MemoryCollection}

theorem empty (field : Option String) : Sound { partitionField := field } where
  ascending := Entries.ascending_nil
  keyed := fun _ h => nomatch h

theorem insert (h : collection.Sound) {key : DocumentKey} {document : Document}
    (hkey : collection.keyOf? document = some key) :
    Sound { collection with documents := Entries.insert key document collection.documents } where
  ascending := h.ascending.insert key document
  keyed := by
    intro entry hentry
    rcases Entries.eq_or_mem_of_mem_insert hentry with rfl | hold
    · exact hkey
    · exact h.keyed entry hold

theorem erase (h : collection.Sound) (key : DocumentKey) :
    Sound { collection with documents := Entries.erase key collection.documents } where
  ascending := h.ascending.erase key
  keyed := fun entry hentry => h.keyed entry (List.mem_of_mem_filter hentry)

end Sound

/-- A document is only kept in the partition that it belongs to. -/
theorem textOf?_of_partitionOf {collection : MemoryCollection} {id text : String}
    {document : Document} {partition : Option PartitionBinding}
    (h : collection.partitionOf id document partition = .ok text) :
    collection.textOf? document = some text := by
  unfold partitionOf at h
  unfold textOf?
  cases hfield : collection.partitionField with
  | none =>
    rw [hfield] at h
    cases h
    rfl
  | some field =>
    rw [hfield] at h
    dsimp only at h ⊢
    cases hvalue : (document.field? field).filter (!·.isNull) with
    | none =>
      rw [hvalue] at h
      cases h
    | some value =>
      rw [hvalue] at h
      rw [Option.map_some]
      cases partition with
      | none => exact congrArg some (Except.ok.inj h)
      | some binding =>
        dsimp only at h
        split at h
        · exact congrArg some (Except.ok.inj h)
        · cases h

end MemoryCollection

namespace MemoryStore

/-! ## Collections under their names -/

/-- The documents of a collection, each with its key; none if there is no such collection. -/
def entries (store : MemoryStore) (name : String) : Entries DocumentKey Document :=
  (store.collection? name).elim [] (·.documents)

theorem collection?_put_self (store : MemoryStore) (name : String) (collection : MemoryCollection) :
    (store.put name collection).collection? name = some collection :=
  Entries.lookup_insert_self name collection store.collections

theorem collection?_put_of_ne (store : MemoryStore) {name other : String} (h : other ≠ name)
    (collection : MemoryCollection) :
    (store.put name collection).collection? other = store.collection? other :=
  Entries.lookup_insert_of_ne h collection store.collections

theorem put_put (store : MemoryStore) (name : String) (collection other : MemoryCollection) :
    (store.put name other).put name collection = store.put name collection := by
  simp only [put, Entries.insert_insert]

/-- Putting a collection where it is changes nothing. -/
theorem put_collection {store : MemoryStore} {name : String} {collection : MemoryCollection}
    (h : store.collections.Ascending) (hcollection : store.collection? name = some collection) :
    store.put name collection = store := by
  rw [put, h.insert_of_lookup hcollection]

/-! ## Soundness -/

/-- Collections ascend by name, and all are sound. -/
structure Sound (store : MemoryStore) : Prop where
  ascending : store.collections.Ascending
  collections : ∀ entry ∈ store.collections, entry.2.Sound

namespace Sound

variable {store : MemoryStore} {name : String} {collection : MemoryCollection}

theorem collection_sound (h : store.Sound) (hfound : store.collection? name = some collection) :
    collection.Sound :=
  h.collections (name, collection) (Entries.mem_of_lookup_eq_some hfound)

theorem entries_ascending (h : store.Sound) (name : String) : (store.entries name).Ascending := by
  unfold entries
  cases hfound : store.collection? name with
  | none => exact Entries.ascending_nil
  | some collection => exact (h.collection_sound hfound).ascending

/-- No document is stored twice: each has its own key. -/
theorem nodup_documents (h : store.Sound) (name : String) :
    ((store.entries name).map (·.2)).Nodup := by
  unfold entries
  cases hfound : store.collection? name with
  | none => exact List.nodup_nil
  | some collection =>
    have hsound := h.collection_sound hfound
    have hkeys : (collection.documents.map (·.2)).map collection.keyOf?
        = (collection.documents.map (·.1)).map some := by
      rw [List.map_map, List.map_map]
      exact List.map_congr_left fun entry hentry => hsound.keyed entry hentry
    refine List.Nodup.of_map collection.keyOf? ?_
    rw [Option.elim_some, hkeys]
    exact hsound.ascending.nodup_keys.map fun _ _ => Option.some.inj

theorem put (h : store.Sound) (name : String) (hcollection : collection.Sound) :
    (store.put name collection).Sound where
  ascending := h.ascending.insert name collection
  collections := by
    intro entry hentry
    rcases Entries.eq_or_mem_of_mem_insert hentry with rfl | hold
    · exact hcollection
    · exact h.collections entry hold

theorem pointDelete (h : store.Sound) (name id : String) (partition : Option PartitionBinding) :
    (store.pointDelete name id partition).2.Sound := by
  unfold MemoryStore.pointDelete
  cases hfound : store.collection? name with
  | none => exact h
  | some collection =>
    dsimp only
    cases collection.key name id partition with
    | error error => exact h
    | ok key => exact h.put name ((h.collection_sound hfound).erase key)

theorem upsert (h : store.Sound) (name : String) (document : Document)
    (partition : Option PartitionBinding) : (store.upsert name document partition).2.Sound := by
  unfold MemoryStore.upsert
  cases hid : (document.get? idField).bind Document.idText? with
  | none => exact h
  | some id =>
    -- A collection that is created for the document is kept also if the document is refused.
    have hcollection : ((store.collection? name).getD
        { partitionField := partition.map (·.field) }).Sound := by
      cases hfound : store.collection? name with
      | none => exact .empty _
      | some collection => exact h.collection_sound hfound
    generalize (store.collection? name).getD { partitionField := partition.map (·.field) }
      = collection at hcollection ⊢
    dsimp only
    cases hpartition : collection.partitionOf id document partition with
    | error error => exact h.put name hcollection
    | ok text =>
      exact h.put name
        (hcollection.insert (MemoryCollection.keyOf?_eq_some_iff.mpr
          ⟨MemoryCollection.textOf?_of_partitionOf hpartition, hid⟩))

/-- No call makes a sound store unsound. -/
theorem answer (h : store.Sound) (call : StoreCall) : (memoryStore.answer call store).2.Sound := by
  cases call with
  | execute name query => exact h
  | pointRead name id partition => exact h
  | pointDelete name id partition => exact h.pointDelete name id partition
  | count name query => exact h
  | upsert name document partition => exact h.upsert name document partition

end Sound

/-- What can become of an empty store: collections are created in it, and it answers calls. -/
inductive Reachable : MemoryStore → Prop where
  | new : Reachable {}
  | create {store : MemoryStore} (h : Reachable store) (name : String)
      (partitionField : Option String) : Reachable (store.create name partitionField)
  | answer {store : MemoryStore} (h : Reachable store) (call : StoreCall) :
      Reachable (memoryStore.answer call store).2

/-- **A store is sound, whatever has become of it.** -/
theorem Reachable.sound {store : MemoryStore} (h : store.Reachable) : store.Sound := by
  induction h with
  | new => exact ⟨Entries.ascending_nil, fun _ h => nomatch h⟩
  | create _ name partitionField ih => exact ih.put name (.empty partitionField)
  | answer _ call ih => exact ih.answer call

end MemoryStore

/-! ## Towns

A small store that the general statements are tried on. -/

namespace Town

/-- Towns, kept by country. -/
def metadata : EntityMetadata where
  typeName := "Town"
  collection := "towns"
  idProperty := ⟨["id"], .string⟩
  partitionKey := some ⟨["country"], .string⟩
  properties := PropertyTable.build [("country", .string), ("id", .string), ("name", .string)]

def document (id country name : String) : Document :=
  .object [("country", .string country), ("id", .string id), ("name", .string name)]

/-- The towns of one country. -/
def norway : Predicate where
  property := ⟨["country"], .string⟩
  field := "country"
  operator := .equal
  ignoreCase := false
  values := [.string "NO"]

def store : MemoryStore :=
  let store := MemoryStore.create {} "towns" (some "country")
  let store := (store.insert "towns" (document "1" "NO" "Oslo")).2
  let store := (store.insert "towns" (document "2" "DK" "Aarhus")).2
  (store.insert "towns" (document "3" "NO" "Bergen")).2

theorem reachable_store : store.Reachable :=
  .answer (.answer (.answer (.create .new "towns" (some "country")) (.upsert _ _ none))
    (.upsert _ _ none)) (.upsert _ _ none)

end Town

end DerivedQuery
