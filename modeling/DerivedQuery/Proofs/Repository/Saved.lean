import DerivedQuery.Repository
import DerivedQuery.Proofs.Document.Fields
import DerivedQuery.Proofs.Engine.Found
import DerivedQuery.Proofs.Engine.Stock
import DerivedQuery.Proofs.Store.Entry

/-!
# Saved entities

Saving, reading and deleting come by the key of an entity in three ways: from the document with its fresh
identifier, from the identifier and the partition that a caller names, and from the document of the entity
that was given back. The document of a saved entity is the one that was stored
(`Document.Records.ofEntity_toEntity`), so all three lead to one entry of the store
(`Repository.save_findById_delete`).
-/

namespace DerivedQuery

namespace EntityMetadata

/-- The text of an entity's identifier. -/
def idText? (m : EntityMetadata) (entity : Json) : Option String :=
  (entity.get? m.idProperty.leaf).bind Document.idText?

/-- The value for the partition key that an entity names: that of its document. -/
def namedPartition? (m : EntityMetadata) (entity : Json) : Option Json :=
  (Document.ofEntity m entity).toOption.bind m.partitionValue?

end EntityMetadata

namespace Document

variable {m : EntityMetadata} {fields : List (String × Json)} {document : Document}

/-- A document keeps its other fields when it is given an identifier. -/
theorem Records.insert_id (h : Records m fields) (value : Json) :
    Records m (Entries.insert idField value fields) where
  ascending := h.ascending.insert idField value
  declared entry hentry := by
    rcases Entries.eq_or_mem_of_mem_insert hentry with rfl | hentry
    · exact .inl rfl
    · exact h.declared entry hentry
  moved := by
    refine or_iff_not_imp_left.mpr fun hne => ?_
    rw [Entries.lookup_insert_of_ne hne]
    exact h.moved.resolve_left hne

theorem Records.assignId (h : Records m fields) {fresh : String} {used : Bool}
    (hassign : assignId m fresh (.object fields) = .ok (document, used)) :
    ∃ fields, document = .object fields ∧ Records m fields := by
  rw [Document.assignId] at hassign
  split at hassign
  · cases hassign
    exact ⟨fields, rfl, h⟩
  · split at hassign
    · cases hassign
      exact ⟨_, rfl, h.insert_id _⟩
    · cases hassign

/-- The identifier of a document is that of the entity. -/
theorem Records.idText?_toEntity (h : Records m fields) :
    m.idText? (.object (rename idField m.idProperty.leaf fields))
      = (fields.lookup idField).bind idText? := by
  rw [EntityMetadata.idText?, Json.get?]
  by_cases hleaf : idField = m.idProperty.leaf
  · rw [← hleaf, rename_self]
  · rw [lookup_rename hleaf, if_pos rfl, h.moved.resolve_left (Ne.symm hleaf), Option.or_none]

/-- The entity of a document is one of the entity's, if nothing else is called `id`. -/
theorem Records.describes (h : Records m fields)
    (hleaf : (m.properties.resolve? m.idProperty.leaf).isSome) :
    m.Describes (rename idField m.idProperty.leaf fields) where
  ascending := ascending_rename _ _ h.ascending
  declared entry hentry := by
    rcases mem_of_mem_rename hentry with hid | hfield
    · rw [hid]
      exact hleaf
    · rcases h.declared entry hfield with hid | hdeclared
      · by_cases hsame : idField = m.idProperty.leaf
        · rw [hid, hsame]
          exact hleaf
        · -- Nothing is left where the identifier has been moved from.
          have hlookup := (ascending_rename idField m.idProperty.leaf h.ascending).lookup_of_mem hentry
          rw [hid, lookup_rename hsame, if_neg hsame, if_pos rfl] at hlookup
          cases hlookup
      · exact hdeclared

end Document

/-- What the store has answered to work that has succeeded. -/
theorem EngineM.answer_of_ask {σ : Type} {store : DocumentStore σ} {call : StoreCall}
    {session later : Session σ} {answer : call.Answer}
    (h : (ask store call).runOn session = (.ok answer, later)) :
    store.answer call session.store = (.ok answer, later.store) := by
  rw [runOn_ask] at h
  rcases hanswer : store.answer call session.store with ⟨error | given, state⟩
  · rw [hanswer] at h
    cases h
  · rw [hanswer] at h
    cases h
    rfl

namespace Engine

/-- An addition that succeeds is one to the partition that the document names. -/
theorem upsert_eq_ok {m : EntityMetadata} {config : EngineConfig} {session later : Session MemoryStore}
    {document : Document} (h : ((inMemory m config).upsert document).runOn session = (.ok (), later)) :
    ∃ partition, Partition.ofDocument m document = .ok partition ∧
      session.store.upsert m.collection document partition = (.ok (), later.store) := by
  obtain ⟨partition, _, hplaced, hask⟩ := EngineM.runOn_bind_eq_ok_iff.mp h
  rw [EngineM.runOn_ofExcept] at hplaced
  obtain ⟨hpartition, rfl⟩ := Prod.mk.inj hplaced
  exact ⟨partition, hpartition, EngineM.answer_of_ask hask⟩

/-- Removing a document goes by its identifier and the partition that it names, and fails if it is not
there. -/
theorem runOn_deleteDocument {σ : Type} {e : Engine σ} {session : Session σ} {document : Document}
    {id : String} {partition : Option PartitionBinding} {deleted : Bool} {state : σ}
    (hid : Document.id e.metadata document = .ok id)
    (hpartition : Partition.ofDocument e.metadata document = .ok partition)
    (hanswer : e.store.answer (.pointDelete e.metadata.collection id partition) session.store
      = (.ok deleted, state)) :
    ∃ later, (e.deleteDocument document).runOn session
        = (if deleted then .ok () else .error (.storeAccess (.notFound
            ("document '" ++ id ++ "' in '" ++ e.metadata.collection ++ "'"))), later) ∧
      later.store = state := by
  obtain ⟨later, hdelete, hstore, -⟩ := EngineM.runOn_pointDelete hanswer
  refine ⟨later, ?_, hstore⟩
  rw [deleteDocument, EngineM.runOn_bind, EngineM.runOn_ofExcept, hid]
  dsimp only
  rw [EngineM.runOn_bind, hpartition, runOn_check_ok]
  dsimp only
  rw [deleteOne, EngineM.runOn_bind, hdelete]
  cases deleted <;> rfl

end Engine

namespace Repository

section AssignId

variable {σ : Type} (r : Repository σ) {document given : Document} {session later : Session σ}

/-- A document that lacks an identifier is given the next fresh one. -/
theorem runOn_assignId (document : Document) (session : Session σ) :
    (r.assignId document).runOn session =
      match Document.assignId r.engine.metadata (r.freshId session.drawn) document with
      | .ok (document, used) =>
        (.ok document, if used then { session with drawn := session.drawn + 1 } else session)
      | .error error => (.error error, session) := by
  change (EngineM.ofExcept
    (Document.assignId r.engine.metadata (r.freshId session.drawn) document) >>= _).runOn session = _
  rw [EngineM.runOn_bind, EngineM.runOn_ofExcept]
  rcases Document.assignId r.engine.metadata (r.freshId session.drawn) document with
    error | ⟨document, used⟩
  · rfl
  · cases used with
    | true => rfl
    | false => rfl

/-- An identifier is given without the store. -/
theorem store_assignId (document : Document) (session : Session σ) :
    ((r.assignId document).runOn session).2.store = session.store := by
  rw [runOn_assignId]
  split
  · split <;> rfl
  · rfl

theorem exists_of_assignId_eq_ok (h : (r.assignId document).runOn session = (.ok given, later)) :
    ∃ used, Document.assignId r.engine.metadata (r.freshId session.drawn) document
      = .ok (given, used) := by
  rw [runOn_assignId] at h
  split at h
  · next _ used hgiven =>
    cases h
    exact ⟨used, hgiven⟩
  · cases h

end AssignId

/-- A repository over a store in memory. -/
def inMemory (m : EntityMetadata) (config : EngineConfig) (freshId : Nat → String) :
    Repository MemoryStore := ⟨Engine.inMemory m config, freshId⟩

@[simp]
theorem engine_inMemory (m : EntityMetadata) (config : EngineConfig) (freshId : Nat → String) :
    (inMemory m config freshId).engine = Engine.inMemory m config := rfl

variable {m : EntityMetadata} {config : EngineConfig} {freshId : Nat → String}
  {session later : Session MemoryStore} {members : List (String × Json)} {saved : Json}

/-- The document with its identifier has the entity's fields. -/
theorem assignId_eq_ok {fields : List (String × Json)} {document : Document}
    (hfields : Document.Records m fields)
    (h : ((inMemory m config freshId).assignId (.object fields)).runOn session = (.ok document, later)) :
    (∃ fields, document = .object fields ∧ Document.Records m fields) ∧
      later.store = session.store := by
  obtain ⟨used, hgiven⟩ := (inMemory m config freshId).exists_of_assignId_eq_ok h
  have hstore := (inMemory m config freshId).store_assignId (.object fields) session
  rw [h] at hstore
  exact ⟨hfields.assignId hgiven, hstore⟩

/-- What is saved is the entity of a document that has been added. -/
theorem save_eq_ok (hmembers : m.Describes members)
    (h : ((inMemory m config freshId).save (.object members)).runOn session = (.ok saved, later)) :
    ∃ fields partition, Document.Records m fields ∧
      saved = .object (Document.rename idField m.idProperty.leaf fields) ∧
      Partition.ofDocument m (.object fields) = .ok partition ∧
      session.store.upsert m.collection (.object fields) partition = (.ok (), later.store) := by
  obtain ⟨document, _, hdocument, hrest⟩ := EngineM.runOn_bind_eq_ok_iff.mp h
  cases hdocument
  obtain ⟨assigned, prepared, hassign, hrest⟩ := EngineM.runOn_bind_eq_ok_iff.mp hrest
  obtain ⟨⟨fields, rfl, hfields⟩, hstore⟩ := assignId_eq_ok (Document.records_ofEntity hmembers) hassign
  obtain ⟨_, added, hupsert, hback⟩ := EngineM.runOn_bind_eq_ok_iff.mp hrest
  obtain ⟨partition, hpartition, hadded⟩ := Engine.upsert_eq_ok hupsert
  have hentity : (inMemory m config freshId).toEntity (.object fields) = _ := hfields.toEntity
  rw [EngineM.runOn_ofExcept, hentity] at hback
  cases hback
  exact ⟨fields, partition, hfields, rfl, hpartition, hstore ▸ hadded⟩

/-- Reading by identifier and partition of a stored document gives its entity. -/
theorem runOn_findById {id : String} {partition : Option PartitionBinding} {document : Document}
    {entity : Json} (hpartition : Partition.ofDocument m document = .ok partition)
    (hread : session.store.pointRead m.collection id partition = .ok (some document))
    (hentity : Document.toEntity m document = .ok entity) :
    ∃ later, ((inMemory m config freshId).findById id (m.partitionValue? document)).runOn session
        = (.ok (some entity), later) ∧ later.store = session.store := by
  have hanswer : memoryStore.answer (.pointRead m.collection id partition) session.store
      = (.ok (some document), session.store) := by
    change (session.store.pointRead m.collection id partition, session.store) = _
    rw [hread]
  obtain ⟨later, hrun, hstore⟩ := EngineM.runOn_pointRead hanswer
  have hfound : ((Engine.inMemory m config).pointRead id (m.partitionValue? document)).runOn session
      = (.ok (some document), later) := by
    rw [Engine.pointRead, EngineM.runOn_bind, Engine.runOn_pointPartition hpartition]
    exact hrun
  have hentity' : (inMemory m config freshId).toEntity document = .ok entity := hentity
  refine ⟨later, ?_, hstore⟩
  rw [findById, engine_inMemory, EngineM.runOn_bind, hfound]
  dsimp only
  rw [hentity']
  rfl

/-- Deleting an entity removes the document with the identifier and the partition of its own. -/
theorem runOn_delete {entity : Json} {id : String} {partition : Option PartitionBinding}
    {document : Document} {deleted : Bool} {state : MemoryStore}
    (hdocument : Document.ofEntity m entity = .ok document) (hid : Document.id m document = .ok id)
    (hpartition : Partition.ofDocument m document = .ok partition)
    (hanswer : session.store.pointDelete m.collection id partition = (.ok deleted, state)) :
    ∃ later, ((inMemory m config freshId).delete entity).runOn session
        = (if deleted then .ok () else .error (.storeAccess (.notFound
            ("document '" ++ id ++ "' in '" ++ m.collection ++ "'"))), later) ∧
      later.store = state := by
  obtain ⟨later, hrun, hstore⟩ :=
    Engine.runOn_deleteDocument (e := Engine.inMemory m config) hid hpartition hanswer
  have hdocument' : Document.ofEntity (inMemory m config freshId).engine.metadata entity
      = .ok document := hdocument
  refine ⟨later, ?_, hstore⟩
  rw [delete, EngineM.runOn_bind, EngineM.runOn_ofExcept, hdocument']
  exact hrun

/-- **A saved entity is read by its identifier and its partition, and deleted once.** Whatever the entity
replaces, saving it changes the store under its own key and nowhere else, and so does deleting it. There
is nothing left for a second deletion, which leaves the store alone. -/
theorem save_findById_delete (hreachable : session.store.Reachable)
    (hpartitions : m.Partitions session.store) (hmembers : m.Describes members)
    (hsave : ((inMemory m config freshId).save (.object members)).runOn session = (.ok saved, later)) :
    ∃ document collection key, Document.ofEntity m saved = .ok document ∧
      later.store.collection? m.collection = some collection ∧ collection.Addresses key document ∧
      m.idText? saved = some key.id ∧
      (∃ read, ((inMemory m config freshId).findById key.id (m.namedPartition? saved)).runOn later
          = (.ok (some saved), read) ∧ read.store = later.store) ∧
      later.store.document? m.collection key = some document ∧
      session.store.ChangesAt later.store m.collection key ∧
      later.store.size m.collection = session.store.size m.collection
        + (if (session.store.document? m.collection key).isSome then 0 else 1) ∧
      ∃ deleted, ((inMemory m config freshId).delete saved).runOn later = (.ok (), deleted) ∧
        deleted.store.document? m.collection key = none ∧
        later.store.ChangesAt deleted.store m.collection key ∧
        deleted.store.size m.collection + 1 = later.store.size m.collection ∧
        ∃ again, ((inMemory m config freshId).delete saved).runOn deleted
            = (.error (.storeAccess (.notFound
                ("document '" ++ key.id ++ "' in '" ++ m.collection ++ "'"))), again) ∧
          again.store = deleted.store := by
  obtain ⟨fields, partition, hfields, rfl, hpartition, hadded⟩ := save_eq_ok hmembers hsave
  obtain ⟨collection, key, hfound, haddresses, hstored, hchanged, hsize⟩ :=
    MemoryStore.upsert_adds hreachable.sound hadded
  have hsound : later.store.Sound := by
    have hafter := hreachable.sound.upsert m.collection (.object fields) partition
    rwa [hadded] at hafter
  have hplaced : m.Partitions later.store := by
    have hafter := Engine.partitions_upsert hpartitions hpartition
    rwa [hadded] at hafter
  -- The entity reads the key of the document from it, so all that comes by this key agrees.
  obtain ⟨hid, own, hown, hkey⟩ := MemoryCollection.key_of_keyOf? (hplaced collection hfound)
    (MemoryCollection.keyOf?_eq_some_iff_addresses.mpr haddresses) m.collection
  have hread : later.store.pointRead m.collection key.id own = .ok (some (.object fields)) := by
    have hlookup : collection.documents.lookup key = some (.object fields) := by
      rwa [MemoryStore.document?, MemoryStore.entries, hfound] at hstored
    simp only [MemoryStore.pointRead, hfound, hkey, ok_bind, hlookup]
  have hdocument := hfields.ofEntity_toEntity
  have hnamed : m.namedPartition? (.object (Document.rename idField m.idProperty.leaf fields))
      = m.partitionValue? (.object fields) := by
    rw [EntityMetadata.namedPartition?, hdocument]
    rfl
  obtain ⟨removed, hremove, hgone, hremoved, hshrunk, hagain⟩ :=
    MemoryStore.pointDelete_removes hsound hfound hstored hkey
  obtain ⟨deleted, hdelete, rfl⟩ := runOn_delete hdocument hid hown hremove
  obtain ⟨again, hdelete', hkept⟩ := runOn_delete hdocument hid hown hagain
  refine ⟨.object fields, collection, key, hdocument, hfound, haddresses, ?_, ?_, hstored, hchanged,
    hsize, deleted, hdelete, hgone, hremoved, hshrunk, again, hdelete', hkept⟩
  · obtain ⟨value, hvalue, htext⟩ := haddresses.id
    exact hfields.idText?_toEntity.trans (Option.bind_eq_some_iff.mpr ⟨value, hvalue, htext⟩)
  · rw [hnamed]
    exact runOn_findById hown hread hfields.toEntity

end Repository

namespace Sensor

/-- Sensors, kept by a property of the place where they are. -/
def metadata : EntityMetadata where
  typeName := "Sensor"
  collection := "sensors"
  idProperty := ⟨["serial"], .string⟩
  partitionKey := some ⟨["site", "region"], .string⟩
  properties := PropertyTable.build
    [("serial", .string), ("site", .object [("region", .string)])]

def members : List (String × Json) := [("site", .object [("region", .string "north")])]

def saved : Json :=
  .object [("serial", .string "s0"), ("site", .object [("region", .string "north")])]

end Sensor

namespace Repository

theorem save_findById_delete_sensors :
    let r := inMemory Sensor.metadata {} fun _ => "s0"
    ∃ later, (r.save (.object Sensor.members)).runOn { store := {} } = (.ok Sensor.saved, later) ∧
      later.store.size "sensors" = 1 ∧
      (∃ read, (r.findById "s0" (some (.string "north"))).runOn later
        = (.ok (some Sensor.saved), read)) ∧
      ∃ deleted, (r.delete Sensor.saved).runOn later = (.ok (), deleted) := by
  intro r
  have hsaved : ((r.save (.object Sensor.members)).runOn { store := {} }).1 = .ok Sensor.saved := by
    simp only [r, inMemory, save]
    rfl
  have hsave : (r.save (.object Sensor.members)).runOn { store := {} }
      = (.ok Sensor.saved, ((r.save (.object Sensor.members)).runOn { store := {} }).2) :=
    Prod.ext hsaved rfl
  have hpartitions : Sensor.metadata.Partitions {} := by
    rintro collection ⟨⟩
  obtain ⟨document, collection, key, -, -, -, htext, ⟨read, hread, -⟩, -, -, hsize, deleted, hdelete, -⟩ :=
    save_findById_delete .new hpartitions ⟨by decide, by decide⟩ hsave
  have hkey : key.id = "s0" := (Option.some.inj htext).symm
  rw [hkey] at hread
  exact ⟨_, hsave, hsize, ⟨read, hread⟩, deleted, hdelete⟩

end Repository

end DerivedQuery
