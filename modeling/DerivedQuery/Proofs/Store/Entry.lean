import DerivedQuery.Proofs.Store.Keys

/-!
# One entry of a store

An addition and a removal change one entry of one collection (`MemoryStore.ChangesAt`) and say so: an
addition makes the collection grow by one entry exactly if its key was not there
(`MemoryStore.upsert_adds`), and a removal takes one entry away, so that there is nothing left for a second
one (`MemoryStore.pointDelete_removes`).
-/

namespace DerivedQuery.MemoryStore

variable {store later : MemoryStore} {name : String} {collection : MemoryCollection}
  {key : DocumentKey} {document : Document} {partition : Option PartitionBinding}

/-- All documents under other keys and all other collections are as they were. -/
structure ChangesAt (store later : MemoryStore) (name : String) (key : DocumentKey) : Prop where
  documents : store.AgreesBut later name key
  collections : ∀ other, other ≠ name → later.collection? other = store.collection? other

theorem changesAt_put (h : ∀ k, k ≠ key → collection.documents.lookup k = store.document? name k) :
    store.ChangesAt (store.put name collection) name key where
  documents := agreesBut_put h
  collections _ hother := collection?_put_of_ne store hother collection

theorem size_eq (store : MemoryStore) (name : String) : store.size name = (store.entries name).length := by
  unfold size entries
  cases store.collection? name <;> rfl

theorem entries_put_self (store : MemoryStore) (name : String) (collection : MemoryCollection) :
    (store.put name collection).entries name = collection.documents := by
  rw [entries, collection?_put_self, Option.elim_some]

theorem documents_target (store : MemoryStore) (name : String) (partition : Option PartitionBinding) :
    (store.target name partition).documents = store.entries name := by
  unfold target entries
  cases store.collection? name <;> rfl

/-- **An addition puts its document under its own key and changes nothing else.** -/
theorem upsert_adds (hsound : store.Sound) (h : store.upsert name document partition = (.ok (), later)) :
    ∃ collection key, later.collection? name = some collection ∧ collection.Addresses key document ∧
      later.document? name key = some document ∧ store.ChangesAt later name key ∧
      later.size name = store.size name + if (store.document? name key).isSome then 0 else 1 := by
  obtain ⟨key, hreceive, rfl⟩ := upsert_eq_ok h
  have haddresses := MemoryCollection.addresses_of_receive hreceive
  have hdocuments : ((store.target name partition).add key document).documents
      = Entries.insert key document (store.entries name) := by
    rw [MemoryCollection.add, documents_target]
  refine ⟨_, key, collection?_put_self _ _ _, ⟨haddresses.partition, haddresses.id⟩, ?_, ?_, ?_⟩
  · rw [document?_put_self, hdocuments, Entries.lookup_insert_self]
  · refine changesAt_put fun k hk => ?_
    rw [hdocuments, Entries.lookup_insert_of_ne hk, document?]
  · have hascending := hsound.entries_ascending name
    rw [size_eq, size_eq, entries_put_self, hdocuments, hascending.length_insert, document?]
    cases hkey : (store.entries name).lookup key with
    | none => rw [Entries.erase_of_lookup_eq_none hkey]; rfl
    | some old => rw [hascending.length_erase hkey]; rfl

/-- **A removal takes the entry of its key away and changes nothing else.** A second one finds nothing and
leaves the store alone. -/
theorem pointDelete_removes (hsound : store.Sound) (hfound : store.collection? name = some collection)
    (hstored : store.document? name key = some document)
    (hkey : collection.key name key.id partition = .ok key) :
    ∃ removed, store.pointDelete name key.id partition = (.ok true, removed) ∧
      removed.document? name key = none ∧ store.ChangesAt removed name key ∧
      removed.size name + 1 = store.size name ∧
      removed.pointDelete name key.id partition = (.ok false, removed) := by
  have hentries : store.entries name = collection.documents := by rw [entries, hfound, Option.elim_some]
  have hlookup : collection.documents.lookup key = some document := by rw [← hentries]; exact hstored
  refine ⟨store.put name { collection with documents := Entries.erase key collection.documents },
    ?_, ?_, ?_, ?_, ?_⟩
  · simp only [pointDelete, hfound, hkey, hlookup, Option.isSome_some]
  · rw [document?_put_self, Entries.lookup_erase_self]
  · refine changesAt_put fun k hk => ?_
    rw [Entries.lookup_erase_of_ne hk, document?, hentries]
  · rw [size_eq, size_eq, entries_put_self, hentries]
    exact (hsound.collection_sound hfound).ascending.length_erase hlookup
  · have hkey' : MemoryCollection.key
        { collection with documents := Entries.erase key collection.documents } name key.id partition
        = .ok key := hkey
    simp only [pointDelete, collection?_put_self, hkey', Entries.lookup_erase_self, Option.isSome_none,
      Entries.erase_erase, put_put]

end DerivedQuery.MemoryStore
