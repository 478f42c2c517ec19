import DerivedQuery.Proofs.Failure
import DerivedQuery.Proofs.Store.Reachable

/-!
# Keys of documents

A document has its key in a collection from what it says itself (`MemoryCollection.Addresses`), and an
operation on one document has the key from the identifier and the partition that it is called with.
Whatever has become of a store, every document is kept under its own key, so both ways lead to the same
entry once the caller names the document's own partition (`MemoryCollection.key_of_addresses`).

A collection takes a document in by its field of the partition alone (`MemoryCollection.receive`),
whatever else it keeps. So additions to a collection that exists do not get into each other's way
(`MemoryStore.upsert_comm`): what counts is the last one under each key
(`MemoryStore.upsert_upsert`).
-/

namespace DerivedQuery

namespace MemoryCollection

variable {collection : MemoryCollection} {document : Document} {key : DocumentKey}

/-- The key of a document: the JSON text of its value in the field of the partition, which is there and
not `null`, or nothing if there is no such field, and the text of its identifier. -/
structure Addresses (collection : MemoryCollection) (key : DocumentKey) (document : Document) :
    Prop where
  partition : match collection.partitionField with
    | none => key.partition = ""
    | some field => ∃ value, document.field? field = some value ∧ value.isNull = false ∧
        key.partition = value.compact
  id : ∃ value, document.get? idField = some value ∧ Document.idText? value = some key.id

theorem keyOf?_eq_some_iff_addresses :
    collection.keyOf? document = some key ↔ collection.Addresses key document := by
  have htext : collection.textOf? document = some key.partition ↔
      match collection.partitionField with
      | none => key.partition = ""
      | some field => ∃ value, document.field? field = some value ∧ value.isNull = false ∧
          key.partition = value.compact := by
    unfold textOf?
    cases collection.partitionField with
    | none => simp only [Option.some.injEq, eq_comm]
    | some field =>
      simp only [Option.map_eq_some_iff, Option.filter_eq_some_iff, Bool.not_eq_true', partitionText,
        and_assoc, eq_comm (b := key.partition)]
  rw [keyOf?_eq_some_iff, htext, Option.bind_eq_some_iff]
  exact ⟨fun ⟨hpartition, hid⟩ => ⟨hpartition, hid⟩, fun h => ⟨h.partition, h.id⟩⟩

/-- A document has one key. -/
theorem Addresses.unique {other : DocumentKey} (h : collection.Addresses key document)
    (h' : collection.Addresses other document) : key = other := by
  rw [← keyOf?_eq_some_iff_addresses] at h h'
  exact Option.some.inj (h.symm.trans h')

/-- The partition is named by the document's own value there. Without a field of the partition any
name will do. -/
def Locates (collection : MemoryCollection) (document : Document)
    (partition : Option PartitionBinding) : Prop :=
  ∀ field ∈ collection.partitionField, ∃ binding, partition = some binding ∧
    document.field? field = some binding.value

/-- Identifier and partition of a document lead to its key. -/
theorem key_of_addresses (h : collection.Addresses key document)
    {partition : Option PartitionBinding} (hpartition : collection.Locates document partition)
    (name : String) : collection.key name key.id partition = .ok key := by
  have hkey := h.partition
  unfold MemoryCollection.key
  cases hfield : collection.partitionField with
  | none =>
    rw [hfield] at hkey
    cases key
    cases hkey
    rfl
  | some field =>
    rw [hfield] at hkey
    obtain ⟨value, hvalue, -, htext⟩ := hkey
    obtain ⟨binding, rfl, hbinding⟩ := hpartition field hfield
    obtain rfl := Option.some.inj (hvalue.symm.trans hbinding)
    cases key
    cases htext
    rfl

/-! ## Taking documents in -/

/-- The key under which a collection takes a document in, unless it refuses it. -/
def receive (collection : MemoryCollection) (name : String) (document : Document)
    (partition : Option PartitionBinding) : Except StoreError DocumentKey :=
  match (document.get? idField).bind Document.idText? with
  | none => .error (.badRequest ("document in '" ++ name ++ "' has no string or number 'id'"))
  | some id => (collection.partitionOf id document partition).map (⟨·, id⟩)

/-- The collection with a document under a key. -/
def add (collection : MemoryCollection) (key : DocumentKey) (document : Document) : MemoryCollection :=
  { collection with documents := Entries.insert key document collection.documents }

/-- What a collection keeps does not matter to what it takes in. -/
theorem receive_add (collection : MemoryCollection) (key : DocumentKey) (other : Document)
    (name : String) (document : Document) (partition : Option PartitionBinding) :
    (collection.add key other).receive name document partition
      = collection.receive name document partition := rfl

theorem add_add (collection : MemoryCollection) (key : DocumentKey) (a b : Document) :
    (collection.add key a).add key b = collection.add key b := by
  simp only [add, Entries.insert_insert]

/-- A document is taken in under its own key. -/
theorem addresses_of_receive {name : String} {partition : Option PartitionBinding}
    (h : collection.receive name document partition = .ok key) : collection.Addresses key document := by
  rw [← keyOf?_eq_some_iff_addresses, keyOf?_eq_some_iff]
  unfold receive at h
  cases hid : (document.get? idField).bind Document.idText? with
  | none =>
    rw [hid] at h
    cases h
  | some id =>
    rw [hid] at h
    dsimp only at h
    cases htext : collection.partitionOf id document partition with
    | error error =>
      rw [htext] at h
      cases h
    | ok text =>
      rw [htext] at h
      cases h
      exact ⟨textOf?_of_partitionOf htext, rfl⟩

end MemoryCollection

namespace MemoryStore

variable {store later : MemoryStore} {name : String} {collection : MemoryCollection}

/-- The document under a key. -/
def document? (store : MemoryStore) (name : String) (key : DocumentKey) : Option Document :=
  (store.entries name).lookup key

/-- Apart from one entry of one collection, the stores have the same documents under the same keys. -/
def AgreesBut (store later : MemoryStore) (name : String) (key : DocumentKey) : Prop :=
  ∀ other k, ¬(other = name ∧ k = key) → later.document? other k = store.document? other k

theorem document?_put_self (store : MemoryStore) (name : String) (collection : MemoryCollection)
    (key : DocumentKey) :
    (store.put name collection).document? name key = collection.documents.lookup key := by
  rw [document?, entries, collection?_put_self]
  rfl

theorem document?_put_of_ne (store : MemoryStore) {name other : String} (h : other ≠ name)
    (collection : MemoryCollection) (key : DocumentKey) :
    (store.put name collection).document? other key = store.document? other key := by
  rw [document?, entries, collection?_put_of_ne _ h]
  rfl

/-- A collection in which one key has changed is put in place of a collection. -/
theorem agreesBut_put {key : DocumentKey}
    (h : ∀ k, k ≠ key → collection.documents.lookup k = store.document? name k) :
    store.AgreesBut (store.put name collection) name key := by
  intro other k hentry
  by_cases hname : other = name
  · subst hname
    rw [document?_put_self]
    exact h k fun hkey => hentry ⟨rfl, hkey⟩
  · exact document?_put_of_ne _ hname _ _

/-- The collection that is added to: the one with the name, or an empty one. -/
def target (store : MemoryStore) (name : String) (partition : Option PartitionBinding) :
    MemoryCollection :=
  (store.collection? name).getD { partitionField := partition.map (·.field) }

theorem lookup_target (store : MemoryStore) (name : String) (partition : Option PartitionBinding)
    (key : DocumentKey) :
    (store.target name partition).documents.lookup key = store.document? name key := by
  unfold target document? entries
  cases store.collection? name <;> rfl

/-- An addition leaves its collection partitioned as it was, or as the caller says if it is new. -/
theorem partitionField_upsert {document : Document} {partition : Option PartitionBinding}
    (h : (store.upsert name document partition).2.collection? name = some collection) :
    collection.partitionField = (store.target name partition).partitionField := by
  unfold upsert at h
  split at h
  · rw [target, h, Option.getD_some]
  · dsimp only at h
    -- A document that is refused leaves the collection behind all the same.
    split at h
    · rw [collection?_put_self] at h
      cases h
      rfl
    · rw [collection?_put_self] at h
      cases h
      rfl

/-- An addition that succeeds puts the document under the key under which it is taken in. -/
theorem upsert_eq_ok {document : Document} {partition : Option PartitionBinding}
    (h : store.upsert name document partition = (.ok (), later)) :
    ∃ key, (store.target name partition).receive name document partition = .ok key ∧
      later = store.put name ((store.target name partition).add key document) := by
  unfold upsert at h
  unfold MemoryCollection.receive
  cases hid : (document.get? idField).bind Document.idText? with
  | none =>
    rw [hid] at h
    cases h
  | some id =>
    rw [hid] at h
    have htarget : (store.collection? name).getD { partitionField := partition.map (·.field) }
        = store.target name partition := rfl
    simp only [htarget] at h
    cases hpartition : (store.target name partition).partitionOf id document partition with
    | error error =>
      rw [hpartition] at h
      cases h
    | ok text =>
      rw [hpartition] at h
      cases h
      exact ⟨⟨text, id⟩, by simp only [hpartition, Except.map], rfl⟩

/-- An addition to a collection that exists adds to it alone, or changes nothing. -/
theorem upsert_of_collection (hascending : store.collections.Ascending)
    (hfound : store.collection? name = some collection) (document : Document)
    (partition : Option PartitionBinding) :
    store.upsert name document partition =
      match collection.receive name document partition with
      | .ok key => (.ok (), store.put name (collection.add key document))
      | .error error => (.error error, store) := by
  unfold upsert MemoryCollection.receive
  cases (document.get? idField).bind Document.idText? with
  | none => rfl
  | some id =>
    simp only [hfound, Option.getD_some]
    cases collection.partitionOf id document partition with
    | error error =>
      simp only [put_collection hascending hfound]
      rfl
    | ok text => rfl

/-- An addition behind another one to the same collection is decided as it was before. -/
theorem upsert_put_add (hascending : store.collections.Ascending) (name : String)
    (collection : MemoryCollection) (key : DocumentKey) (added document : Document)
    (partition : Option PartitionBinding) :
    (store.put name (collection.add key added)).upsert name document partition =
      match collection.receive name document partition with
      | .ok k => (.ok (), store.put name ((collection.add key added).add k document))
      | .error error => (.error error, store.put name (collection.add key added)) := by
  have hascending' : (store.put name (collection.add key added)).collections.Ascending :=
    hascending.insert name _
  rw [upsert_of_collection hascending' (collection?_put_self _ _ _), MemoryCollection.receive_add]
  simp only [put_put]

/-- Additions under different keys of a collection that exists may change places. -/
theorem upsert_comm (hascending : store.collections.Ascending)
    (hfound : store.collection? name = some collection) (hsound : collection.Sound) {a b : Document}
    (hkeys : ∀ key, collection.Addresses key a → ¬collection.Addresses key b)
    (partition other : Option PartitionBinding) :
    ∃ both,
      (store.upsert name a partition).2.upsert name b other = ((store.upsert name b other).1, both) ∧
      (store.upsert name b other).2.upsert name a partition
        = ((store.upsert name a partition).1, both) := by
  have hupsert := upsert_of_collection hascending hfound
  have hbehind := upsert_put_add hascending name collection
  -- A document that is refused leaves nothing behind, so only with two that are taken in is there
  -- anything to change places.
  cases ha : collection.receive name a partition with
  | error error =>
    cases hb : collection.receive name b other with
    | error error' => exact ⟨store, by simp only [hupsert, ha, hb], by simp only [hupsert, ha, hb]⟩
    | ok key =>
      exact ⟨store.put name (collection.add key b), by simp only [hupsert, ha, hb],
        by simp only [hupsert, hbehind, ha, hb]⟩
  | ok key =>
    cases hb : collection.receive name b other with
    | error error' =>
      exact ⟨store.put name (collection.add key a), by simp only [hupsert, hbehind, ha, hb],
        by simp only [hupsert, ha, hb]⟩
    | ok key' =>
      have hne : key ≠ key' := by
        rintro rfl
        exact hkeys key (MemoryCollection.addresses_of_receive ha)
          (MemoryCollection.addresses_of_receive hb)
      have hboth : (collection.add key' b).add key a = (collection.add key a).add key' b := by
        unfold MemoryCollection.add
        rw [hsound.ascending.insert_comm hne]
      exact ⟨store.put name ((collection.add key a).add key' b),
        by simp only [hupsert, hbehind, ha, hb], by simp only [hupsert, hbehind, ha, hb, hboth]⟩

/-- Of two additions under one key of a collection that exists, the later one wins. -/
theorem upsert_upsert (hascending : store.collections.Ascending)
    (hfound : store.collection? name = some collection) {key : DocumentKey} {a b : Document}
    (ha : collection.Addresses key a) (hb : collection.Addresses key b)
    {other : Option PartitionBinding} (hadded : (store.upsert name b other).1 = .ok ())
    (partition : Option PartitionBinding) :
    (store.upsert name a partition).2.upsert name b other = store.upsert name b other := by
  have hupsert := upsert_of_collection hascending hfound
  cases hreceive : collection.receive name a partition with
  | error error => simp only [hupsert a, hreceive]
  | ok found =>
    cases hreceive' : collection.receive name b other with
    | error error =>
      rw [hupsert, hreceive'] at hadded
      cases hadded
    | ok found' =>
      obtain rfl := ha.unique (MemoryCollection.addresses_of_receive hreceive)
      obtain rfl := hb.unique (MemoryCollection.addresses_of_receive hreceive')
      simp only [hupsert, upsert_put_add hascending, hreceive, hreceive', MemoryCollection.add_add]

/-- **Whatever has become of a store, its documents are kept under their own keys.** So a document that
has been added is read and removed by its own identifier and partition, nothing else being touched, and
of the additions to a collection that exists the last one under each key counts. -/
theorem Reachable.keys_follow_documents (h : store.Reachable) :
    (∀ held ∈ store.collections, ∀ entry ∈ held.2.documents, held.2.Addresses entry.1 entry.2) ∧
    (∀ name document partition later, store.upsert name document partition = (.ok (), later) →
      ∃ collection key, later.collection? name = some collection ∧
        collection.Addresses key document ∧ store.AgreesBut later name key ∧
        ∀ own, collection.Locates document own →
          later.pointRead name key.id own = .ok (some document) ∧
          ∃ removed, later.pointDelete name key.id own = (.ok true, removed) ∧
            removed.document? name key = none ∧ later.AgreesBut removed name key) ∧
    (∀ name collection, store.collection? name = some collection → ∀ a b partition other,
      ((∀ key, collection.Addresses key a → ¬collection.Addresses key b) →
        ∃ both,
          (store.upsert name a partition).2.upsert name b other
            = ((store.upsert name b other).1, both) ∧
          (store.upsert name b other).2.upsert name a partition
            = ((store.upsert name a partition).1, both)) ∧
      ∀ key, collection.Addresses key a → collection.Addresses key b →
        (store.upsert name b other).1 = .ok () →
        (store.upsert name a partition).2.upsert name b other = store.upsert name b other) := by
  have hsound := h.sound
  refine ⟨?_, ?_, ?_⟩
  · intro held hheld entry hentry
    exact MemoryCollection.keyOf?_eq_some_iff_addresses.mp
      ((hsound.collections held hheld).keyed entry hentry)
  · intro name document partition later hupsert
    obtain ⟨key, hreceive, rfl⟩ := upsert_eq_ok hupsert
    have haddresses := MemoryCollection.addresses_of_receive hreceive
    have hfound := collection?_put_self store name ((store.target name partition).add key document)
    have hlookup : ((store.target name partition).add key document).documents.lookup key
        = some document := Entries.lookup_insert_self _ _ _
    refine ⟨_, key, hfound, ⟨haddresses.partition, haddresses.id⟩, ?_, ?_⟩
    · refine agreesBut_put fun k hk => ?_
      rw [← lookup_target store name partition]
      exact Entries.lookup_insert_of_ne hk _ _
    · intro own hown
      have hkey := MemoryCollection.key_of_addresses haddresses hown name
      have hkey' : ((store.target name partition).add key document).key name key.id own = .ok key :=
        hkey
      refine ⟨?_, ?_⟩
      · simp only [pointRead, hfound, hkey', ok_bind, hlookup]
      · simp only [pointDelete, hfound, hkey', hlookup]
        refine ⟨_, rfl, ?_, ?_⟩
        · rw [document?_put_self]
          exact Entries.lookup_erase_self _ _
        · refine agreesBut_put fun k hk => ?_
          rw [document?_put_self]
          exact Entries.lookup_erase_of_ne hk _
  · intro name collection hfound a b partition other
    refine ⟨fun hkeys => ?_, fun key ha hb hadded => ?_⟩
    · exact upsert_comm hsound.ascending hfound (hsound.collection_sound hfound) hkeys _ _
    · exact upsert_upsert hsound.ascending hfound ha hb hadded _

theorem Reachable.keys_follow_documents_towns :
    (∃ later, Town.store.upsert "towns" (Town.document "4" "SE" "Lund") none = (.ok (), later) ∧
      later.pointRead "towns" "4" (some ⟨"country", "country", .string "SE"⟩)
        = .ok (some (Town.document "4" "SE" "Lund"))) ∧
    ∃ both,
      (Town.store.upsert "towns" (Town.document "4" "SE" "Lund") none).2.upsert "towns"
        (Town.document "1" "NO" "Kristiania") none = (.ok (), both) ∧
      (Town.store.upsert "towns" (Town.document "1" "NO" "Kristiania") none).2.upsert "towns"
        (Town.document "4" "SE" "Lund") none = (.ok (), both) := by
  obtain ⟨-, hadded, hboth⟩ := Town.reachable_store.keys_follow_documents
  have hlund : Town.store.upsert "towns" (Town.document "4" "SE" "Lund") none
      = (.ok (), (Town.store.upsert "towns" (Town.document "4" "SE" "Lund") none).2) := rfl
  refine ⟨⟨_, hlund, ?_⟩, ?_⟩
  · obtain ⟨collection, key, hfound, haddresses, -, hown⟩ := hadded _ _ _ _ hlund
    cases hfound
    obtain rfl : key = ⟨"\"SE\"", "4"⟩ :=
      haddresses.unique ⟨⟨.string "SE", rfl, rfl, rfl⟩, ⟨.string "4", rfl, rfl⟩⟩
    have hlocates : MemoryCollection.Locates ((Town.store.target "towns" none).add ⟨"\"SE\"", "4"⟩
        (Town.document "4" "SE" "Lund")) (Town.document "4" "SE" "Lund")
        (some ⟨"country", "country", .string "SE"⟩) := by
      rintro field ⟨⟩
      exact ⟨_, rfl, rfl⟩
    exact (hown _ hlocates).1
  · obtain ⟨hcomm, -⟩ := hboth "towns" _ rfl (Town.document "4" "SE" "Lund")
      (Town.document "1" "NO" "Kristiania") none none
    refine hcomm ?_
    rintro key ⟨-, _, ⟨⟩, hlund⟩ ⟨-, _, ⟨⟩, hkristiania⟩
    exact absurd (hlund.trans hkristiania.symm) (by decide)

end MemoryStore

end DerivedQuery
