import DerivedQuery.Proofs.Engine.Planning
import DerivedQuery.Proofs.Engine.Walk
import DerivedQuery.Proofs.Store.Settled

/-!
# Removing what a call selects

A removal by query goes through two ways of naming documents: the predicates find them, and the key
that is read from each one removes it. Over a sound store in memory these agree: one removal takes just
the entry of the document out (`Engine.runOn_deleteFound`), and by induction on the documents a run of
removals takes out just the entries with their keys (`Engine.runOn_deleteEach`). No key occurs twice,
and the documents are collected before the first one is removed, so what is left are the documents that
the predicates do not select (`MemoryStore.without`).
-/

namespace DerivedQuery

namespace EntityMetadata

/-- The collection of the entity is absent, or partitioned by the field of the entity's partition. -/
def Partitions (m : EntityMetadata) (store : MemoryStore) : Prop :=
  ∀ collection ∈ store.collection? m.collection,
    collection.partitionField = m.partitionKey.map m.documentField

end EntityMetadata

namespace MemoryStore

/-- The store without the documents of a collection that predicates select. -/
def without (store : MemoryStore) (name : String) (tree : PredicateTree) : MemoryStore :=
  match store.collection? name with
  | none => store
  | some collection =>
    store.put name { collection with documents := collection.documents.filter (!tree.holds ·.2) }

theorem collection?_without_self (store : MemoryStore) (name : String) (tree : PredicateTree) :
    (store.without name tree).collection? name = (store.collection? name).map fun collection =>
      { collection with documents := collection.documents.filter (!tree.holds ·.2) } := by
  unfold without
  cases hfound : store.collection? name with
  | none => exact hfound
  | some collection => exact collection?_put_self _ _ _

theorem collection?_without_of_ne (store : MemoryStore) {name other : String} (h : other ≠ name)
    (tree : PredicateTree) :
    (store.without name tree).collection? other = store.collection? other := by
  unfold without
  cases store.collection? name with
  | none => rfl
  | some collection => exact collection?_put_of_ne _ h _

end MemoryStore

namespace MemoryCollection

variable {m : EntityMetadata} {collection : MemoryCollection} {document : Document}
  {key : DocumentKey}

/-- The identifier and the partition that an entity reads from a document give back its key. -/
theorem key_of_keyOf? (hpartitions : collection.partitionField = m.partitionKey.map m.documentField)
    (hkey : collection.keyOf? document = some key) (name : String) :
    Document.id m document = .ok key.id ∧ ∃ partition,
      Partition.ofDocument m document = .ok partition ∧
      collection.key name key.id partition = .ok key := by
  obtain ⟨htext, hid⟩ := keyOf?_eq_some_iff.mp hkey
  refine ⟨?_, ?_⟩
  · obtain ⟨value, hvalue, hidText⟩ := Option.bind_eq_some_iff.mp hid
    simp only [Document.id, hvalue, hidText]
  · unfold textOf? at htext
    unfold MemoryCollection.key Partition.ofDocument
    rw [hpartitions] at htext ⊢
    -- Collection and entity agree on whether and where the document names its partition.
    cases hpartition : m.partitionKey with
    | none =>
      rw [hpartition] at htext
      have hempty : key.partition = "" := (Option.some.inj htext).symm
      exact ⟨none, rfl, by rw [← hempty]; rfl⟩
    | some path =>
      rw [hpartition] at htext
      obtain ⟨value, hvalue, htext⟩ := Option.map_eq_some_iff.mp htext
      refine ⟨some ⟨path.dotted, m.documentField path, value⟩, ?_, ?_⟩
      · simp only [hvalue]
      · simp only [Option.map_some, htext]

/-- The keys of selected documents are those of their entries. -/
theorem Sound.keys_of_selected (h : collection.Sound) {tree : PredicateTree} {found : List Document}
    (hfound : found.Perm ((collection.documents.map (·.2)).filter tree.holds)) :
    ∃ keys : List DocumentKey, found.map collection.keyOf? = keys.map some ∧
      keys.Perm ((collection.documents.filter (tree.holds ·.2)).map (·.1)) := by
  have hkeyed : ∀ document ∈ found, ∃ key, collection.keyOf? document = some key := by
    intro document hmem
    obtain ⟨entry, hentry, rfl⟩ :=
      List.mem_map.mp (List.mem_of_mem_filter (hfound.mem_iff.mp hmem))
    exact ⟨entry.1, h.keyed entry hentry⟩
  refine ⟨found.filterMap collection.keyOf?, map_eq_map_some_filterMap hkeyed, ?_⟩
  have hkeys : ((collection.documents.filter (tree.holds ·.2)).map (·.2)).filterMap
        collection.keyOf?
      = (collection.documents.filter (tree.holds ·.2)).map (·.1) := by
    rw [List.filterMap_map, ← List.filterMap_eq_map]
    exact List.filterMap_congr fun entry hentry => h.keyed entry (List.mem_of_mem_filter hentry)
  rw [← hkeys]
  rw [List.filter_map] at hfound
  exact hfound.filterMap collection.keyOf?

/-- Without the keys of the selected documents, the others are left. -/
theorem Sound.filter_not_mem (h : collection.Sound) {tree : PredicateTree}
    {keys : List DocumentKey}
    (hkeys : keys.Perm ((collection.documents.filter (tree.holds ·.2)).map (·.1))) :
    collection.documents.filter (·.1 ∉ keys) = collection.documents.filter (!tree.holds ·.2) := by
  refine List.filter_congr fun entry hentry => ?_
  have hselected : entry.1 ∈ keys ↔ tree.holds entry.2 := by
    rw [hkeys.mem_iff, List.mem_map]
    constructor
    · rintro ⟨other, hother, hkey⟩
      obtain ⟨hother, hholds⟩ := List.mem_filter.mp hother
      -- Another entry with this key would be the same one.
      have hlookup := h.ascending.lookup_of_mem hother
      rw [hkey, h.ascending.lookup_of_mem hentry, Option.some.injEq] at hlookup
      exact hlookup ▸ hholds
    · intro hholds
      exact ⟨entry, List.mem_filter.mpr ⟨hentry, hholds⟩, rfl⟩
  simp [hselected]

end MemoryCollection

namespace Engine

variable {m : EntityMetadata} (config : EngineConfig) (session : Session MemoryStore)
  {collection : MemoryCollection} {name : String}

/-- **A removal takes just the entry of its document out of the collection.** -/
theorem runOn_deleteFound {document : Document} {key : DocumentKey}
    (hcollection : session.store.collection? name = some collection)
    (hpartitions : collection.partitionField = m.partitionKey.map m.documentField)
    (hkey : collection.keyOf? document = some key) :
    ∃ later, ((inMemory m config).deleteFound name document).runOn session
        = (.ok (collection.documents.lookup key).isSome, later) ∧
      later.store = session.store.put name
        { collection with documents := Entries.erase key collection.documents } ∧
      later.prepared = session.prepared := by
  obtain ⟨hid, partition, hpartition, hfound⟩ :=
    MemoryCollection.key_of_keyOf? hpartitions hkey name
  have hanswer : memoryStore.answer (.pointDelete name key.id partition) session.store
      = (.ok (collection.documents.lookup key).isSome, session.store.put name
          { collection with documents := Entries.erase key collection.documents }) := by
    show session.store.pointDelete name key.id partition = _
    simp only [MemoryStore.pointDelete, hcollection, hfound]
  have hid' : Document.id (inMemory m config).metadata document = .ok key.id := hid
  have hpartition' : Partition.ofDocument (inMemory m config).metadata document = .ok partition :=
    hpartition
  rw [deleteFound, hid', hpartition']
  exact EngineM.runOn_pointDelete hanswer

/-- **A run of removals takes just the entries with these keys out of the collection.** -/
theorem runOn_deleteEach {found : List Document} {keys : List DocumentKey}
    (hascending : session.store.collections.Ascending)
    (hcollection : session.store.collection? name = some collection)
    (hpartitions : collection.partitionField = m.partitionKey.map m.documentField)
    (hkeys : found.map collection.keyOf? = keys.map some) (hnodup : keys.Nodup)
    (hstored : ∀ key ∈ keys, (collection.documents.lookup key).isSome) :
    ∃ later, ((inMemory m config).deleteEach name found).runOn session = (.ok found.length, later) ∧
      later.store = session.store.put name
        { collection with documents := collection.documents.filter (·.1 ∉ keys) } ∧
      later.prepared = session.prepared := by
  -- Each removal leaves the other keys where they are, so the rest of the run finds them.
  induction found generalizing session collection keys with
  | nil =>
    cases keys with
    | cons key rest => cases hkeys
    | nil =>
      have hall : collection.documents.filter (·.1 ∉ ([] : List DocumentKey))
          = collection.documents := List.filter_eq_self.mpr fun _ _ => rfl
      refine ⟨session, rfl, ?_, rfl⟩
      rw [hall, MemoryStore.put_collection hascending hcollection]
  | cons document others ih =>
    cases keys with
    | nil => cases hkeys
    | cons key rest =>
      obtain ⟨hkey, hrest⟩ := List.cons_eq_cons.mp hkeys
      obtain ⟨hfresh, hnodup⟩ := List.nodup_cons.mp hnodup
      obtain ⟨removed, hrun, hstore, hprepared⟩ :=
        runOn_deleteFound config session hcollection hpartitions hkey
      have hlookup : ∀ other ∈ rest,
          ((Entries.erase key collection.documents).lookup other).isSome := by
        intro other hother
        have hne : other ≠ key := fun heq => hfresh (heq ▸ hother)
        rw [Entries.lookup_erase_of_ne hne]
        exact hstored other (List.mem_cons_of_mem key hother)
      have hremoved : removed.store.collection? name
          = some { collection with documents := Entries.erase key collection.documents } := by
        rw [hstore, MemoryStore.collection?_put_self]
      obtain ⟨later, hrunRest, hstoreRest, hpreparedRest⟩ :=
        ih removed (hstore ▸ hascending.insert name _) hremoved hpartitions hrest hnodup hlookup
      have hboth : (Entries.erase key collection.documents).filter (·.1 ∉ rest)
          = collection.documents.filter (·.1 ∉ key :: rest) := by
        rw [Entries.erase, List.filter_filter]
        refine List.filter_congr fun entry _ => ?_
        simp [Bool.and_comm]
      refine ⟨later, ?_, ?_, hpreparedRest.trans hprepared⟩
      · rw [deleteEach, EngineM.runOn_bind, hrun]
        simp only [EngineM.runOn_bind, hrunRest, EngineM.runOn_pure, hstored key List.mem_cons_self,
          ↓reduceIte, List.length_cons, Nat.add_comm]
      · rw [hstoreRest, hstore, MemoryStore.put_put, hboth]

/-- Removing the documents that predicates select, in any order, leaves those that they do not. -/
theorem runOn_deleteEach_matching {tree : PredicateTree} {found : List Document}
    (hsound : session.store.Sound) (hpartitions : m.Partitions session.store)
    (hfound : found.Perm (session.store.matching m.collection tree)) :
    ∃ later, ((inMemory m config).deleteEach m.collection found).runOn session
        = (.ok found.length, later) ∧
      later.store = session.store.without m.collection tree := by
  unfold MemoryStore.matching MemoryStore.entries at hfound
  unfold MemoryStore.without
  cases hcollection : session.store.collection? m.collection with
  | none =>
    rw [hcollection] at hfound
    cases hfound.eq_nil
    exact ⟨session, rfl, rfl⟩
  | some collection =>
    rw [hcollection] at hfound
    have hdocuments := hsound.collection_sound hcollection
    obtain ⟨keys, hkeys, hperm⟩ := hdocuments.keys_of_selected hfound
    have hnodup : keys.Nodup := by
      have hselected : Entries.Ascending (collection.documents.filter (tree.holds ·.2)) :=
        List.Pairwise.filter _ hdocuments.ascending
      exact hperm.nodup_iff.mpr hselected.nodup_keys
    have hstored : ∀ key ∈ keys, (collection.documents.lookup key).isSome := by
      intro key hkey
      obtain ⟨entry, hentry, rfl⟩ := List.mem_map.mp (hperm.mem_iff.mp hkey)
      rw [hdocuments.ascending.lookup_of_mem (List.mem_of_mem_filter hentry)]
      rfl
    obtain ⟨later, hrun, hstore, -⟩ := runOn_deleteEach config session hsound.ascending hcollection
      (hpartitions collection hcollection) hkeys hnodup hstored
    rw [hdocuments.filter_not_mem hperm] at hstore
    exact ⟨later, hrun, hstore⟩

/-- **Removing what a query selects leaves what it does not select, whatever its page and order.** -/
theorem runOn_deleteMatches {query : Query} (hsound : session.store.Sound)
    (hfits : session.store.Addressable) (hpartitions : m.Partitions session.store)
    (hcollection : query.collection = m.collection) :
    ∃ later, ((inMemory m config).deleteMatches query).runOn session
        = (.ok (session.store.matching m.collection query.tree).length, later) ∧
      later.store = session.store.without m.collection query.tree := by
  have hpos : 0 < (query.withPage (query.page.restart query.page.size)).page.size :=
    Nat.lt_of_lt_of_le Nat.one_pos (Nat.le_max_right _ _)
  have hfew := hfits.length_results (query.withPage (query.page.restart query.page.size))
  -- All is collected while the store stays as it is, whatever the page of the query was.
  obtain ⟨collected, hcollect, hkept⟩ := Pages.runOn_collect session hpos hfew rfl
  have hperm := session.store.results_perm (query.withPage (query.page.restart query.page.size))
  rw [List.drop_zero] at hcollect
  generalize session.store.results (query.withPage (query.page.restart query.page.size)) = found
    at hcollect hperm
  have hfound : found.Perm (collected.store.matching m.collection query.tree) := by
    rw [hkept.store, ← hcollection]
    exact hperm
  obtain ⟨deleted, hdelete, hstore⟩ := runOn_deleteEach_matching config collected
    (hkept.store ▸ hsound) (hkept.store ▸ hpartitions) hfound
  rw [hkept.store] at hfound hstore
  have hmemory : (inMemory m config).store = memoryStore := rfl
  rw [deleteMatches, EngineM.runOn_bind, hmemory, hcollect, ← hfound.length_eq]
  simp only [EngineM.runOn_bind, hcollection, hdelete, EngineM.runOn_note, EngineM.runOn_pure]
  exact ⟨_, rfl, hstore⟩

/-- An accepted removal is the removal of what its query selects. -/
theorem runOn_delete {method : String} {call : Call} {query : Query}
    (hplanned : (inMemory m config).planned session method call = .ok query)
    (hdelete : query.action = .delete) (hrequire : (Partition.require m query.tree).isOk)
    (hsound : session.store.Sound) (hfits : session.store.Addressable)
    (hpartitions : m.Partitions session.store) :
    ∃ later, ((inMemory m config).delete method call).runOn session
        = (.ok (session.store.matching m.collection query.tree).length, later) ∧
      later.store = session.store.without m.collection query.tree := by
  have hcollection : query.collection = m.collection :=
    (inMemory m config).collection_of_planned hplanned
  obtain ⟨assembled, hassemble, hkept⟩ := (inMemory m config).runOn_assembleFor_ok hplanned hdelete
  have hmetadata : (inMemory m config).metadata = m := rfl
  rw [delete, EngineM.runOn_bind, hassemble, hmetadata]
  cases hpartition : Partition.require m query.tree with
  | error error =>
    rw [hpartition] at hrequire
    cases hrequire
  | ok partition =>
    obtain ⟨later, hrun, hstore⟩ := runOn_deleteMatches config assembled (hkept.store ▸ hsound)
      (hkept.store ▸ hfits) (hkept.store ▸ hpartitions) hcollection
    rw [hkept.store] at hrun hstore
    simp only [EngineM.runOn_bind, hpartition, runOn_check_ok, hrun]
    exact ⟨later, rfl, hstore⟩

end Engine

end DerivedQuery
