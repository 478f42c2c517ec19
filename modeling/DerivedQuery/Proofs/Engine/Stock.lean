import DerivedQuery.Proofs.Engine.Delete
import DerivedQuery.Proofs.Partition.Binding
import DerivedQuery.Proofs.Store.Keys

/-!
# What additions leave to be read

An engine's additions keep what reading relies on (`Engine.Stocked`): the store is what calls make of an
empty one, the collection of the entity is partitioned as the entity says, and names are taken for what
they are parsed to. One addition keeps it (`Engine.Stocked.upsert`), and so does a run of them
(`Engine.Stocked.upserts`), whether they succeed or not.

Then every stored document is read by its own identifier in its own partition
(`Engine.Stocked.runOn_pointRead`). What is added to a new store is all there is to be read
(`Engine.upserts_new`).
-/

namespace DerivedQuery

/-- The value of a document for the partition key. -/
def EntityMetadata.partitionValue? (m : EntityMetadata) (document : Document) : Option Json :=
  m.partitionKey.bind fun key => document.field? (m.documentField key)

/-- The identifier of a document is the text of what it keeps under `id`. -/
theorem Document.id_eq_ok_iff {m : EntityMetadata} {document : Document} {id : String} :
    Document.id m document = .ok id ↔
      ∃ value, document.get? idField = some value ∧ Document.idText? value = some id := by
  unfold Document.id
  cases document.get? idField with
  | none => simp
  | some value => cases htext : Document.idText? value <;> simp [htext]

/-- A point read gives what the store says, and leaves its state. -/
theorem EngineM.runOn_pointRead {σ : Type} {store : DocumentStore σ} {collection id : String}
    {partition : Option PartitionBinding} {session : Session σ} {found : Option Document} {state : σ}
    (h : store.answer (.pointRead collection id partition) session.store = (.ok found, state)) :
    ∃ later, (pointRead store collection id partition).runOn session = (.ok found, later) ∧
      later.store = state := by
  rw [pointRead, runOn_bind, runOn_ask, h]
  exact ⟨_, rfl, rfl⟩

namespace Engine

/-- The session behind additions, whether they succeed or not. -/
def upserts {σ : Type} (e : Engine σ) (documents : List Document) (session : Session σ) : Session σ :=
  documents.foldl (fun session document => ((e.upsert document).runOn session).2) session

variable {m : EntityMetadata} {config : EngineConfig} {session : Session MemoryStore}
  {document : Document} {partition : Option PartitionBinding}

/-! ## Additions -/

/-- An addition changes the store as the store says, and no name is taken for anything else. -/
theorem store_upsert (config : EngineConfig) (session : Session MemoryStore)
    (h : Partition.ofDocument m document = .ok partition) :
    (((inMemory m config).upsert document).runOn session).2.store
        = (session.store.upsert m.collection document partition).2 ∧
      (((inMemory m config).upsert document).runOn session).2.prepared = session.prepared := by
  have hmetadata : (inMemory m config).metadata = m := rfl
  have hask := EngineM.runOn_ask memoryStore (.upsert m.collection document partition) session
  have hanswer : memoryStore.answer (.upsert m.collection document partition) session.store
      = session.store.upsert m.collection document partition := rfl
  rw [Engine.upsert, EngineM.runOn_bind, EngineM.runOn_ofExcept, hmetadata, h]
  change ((EngineM.ask memoryStore _).runOn session).2.store = _ ∧
    ((EngineM.ask memoryStore _).runOn session).2.prepared = _
  rw [hask, hanswer]
  rcases session.store.upsert m.collection document partition with ⟨error | answer, state⟩
  · exact ⟨rfl, rfl⟩
  · exact ⟨rfl, rfl⟩

/-- A collection that an addition creates is partitioned as the entity says. -/
theorem partitions_upsert {store : MemoryStore} (h : m.Partitions store)
    (hpartition : Partition.ofDocument m document = .ok partition) :
    m.Partitions (store.upsert m.collection document partition).2 := by
  intro collection hcollection
  rw [MemoryStore.partitionField_upsert hcollection, MemoryStore.target]
  cases hfound : store.collection? m.collection with
  | some found => exact h found hfound
  | none =>
    rw [Option.getD_none]
    unfold Partition.ofDocument at hpartition
    split at hpartition
    · next hkey =>
      cases hpartition
      rw [hkey]
      rfl
    · next key hkey =>
      dsimp only at hpartition
      split at hpartition
      · cases hpartition
        rw [hkey]
        rfl
      · cases hpartition

/-- What additions keep, and what reading relies on. -/
structure Stocked (m : EntityMetadata) (config : EngineConfig) (session : Session MemoryStore) :
    Prop where
  reachable : session.store.Reachable
  partitions : m.Partitions session.store
  faithful : (inMemory m config).Faithful session

theorem stocked_new (m : EntityMetadata) (config : EngineConfig) : Stocked m config { store := {} } :=
  ⟨.new, nofun, faithful_new _ _⟩

namespace Stocked

/-- **An addition keeps what reading relies on.** -/
theorem upsert (h : Stocked m config session) (document : Document) :
    Stocked m config (((inMemory m config).upsert document).runOn session).2 := by
  cases hpartition : Partition.ofDocument m document with
  | error error =>
    have hmetadata : (inMemory m config).metadata = m := rfl
    rw [Engine.upsert, EngineM.runOn_bind, EngineM.runOn_ofExcept, hmetadata, hpartition]
    exact h
  | ok partition =>
    obtain ⟨hstore, hprepared⟩ := store_upsert config session hpartition
    refine ⟨?_, ?_, fun method => ?_⟩
    · rw [hstore]
      exact h.reachable.answer (.upsert m.collection document partition)
    · rw [hstore]
      exact partitions_upsert h.partitions hpartition
    · rw [reading, hprepared]
      exact h.faithful method

/-- **Additions keep what reading relies on.** -/
theorem upserts (h : Stocked m config session) (documents : List Document) :
    Stocked m config ((inMemory m config).upserts documents session) := by
  induction documents generalizing session with
  | nil => exact h
  | cons document rest ih => exact ih (h.upsert document)

end Stocked

/-! ## Point reads -/

/-- The partition of a document is the one that its own value names. -/
theorem runOn_pointPartition (h : Partition.ofDocument m document = .ok partition) (method : String) :
    ((inMemory m config).pointPartition method (m.partitionValue? document)).runOn session
      = (.ok partition, session) := by
  have hmetadata : (inMemory m config).metadata = m := rfl
  unfold Partition.ofDocument at h
  unfold pointPartition
  rw [hmetadata]
  cases hkey : m.partitionKey with
  | none =>
    rw [hkey] at h
    cases h
    have hnone : Partition.require m ⟨.and, []⟩ = .ok none := by
      rw [Partition.require, EntityMetadata.isPartitioned, hkey]
      rfl
    dsimp only
    rw [hnone, runOn_check_ok]
  | some key =>
    rw [hkey] at h
    dsimp only at h
    split at h
    · next value hvalue =>
      cases h
      obtain ⟨hfield, hnull⟩ := Option.filter_eq_some_iff.mp hvalue
      rw [Bool.not_eq_true'] at hnull
      rw [EntityMetadata.partitionValue?, hkey, Option.bind_some, hfield]
      dsimp only
      rw [Partition.require_pin hkey hnull, runOn_check_ok]
    · cases h

/-- **A stored document is read by its own identifier in its own partition.** -/
theorem Stocked.runOn_pointRead (h : Stocked m config session)
    (hstored : document ∈ (session.store.entries m.collection).map (·.2)) :
    ∃ id later, Document.id m document = .ok id ∧
      ((inMemory m config).pointRead id (m.partitionValue? document)).runOn session
        = (.ok (some document), later) := by
  obtain ⟨⟨key, document⟩, hentry, rfl⟩ := List.mem_map.mp hstored
  rw [MemoryStore.entries] at hentry
  cases hcollection : session.store.collection? m.collection with
  | none =>
    rw [hcollection] at hentry
    cases hentry
  | some collection =>
    rw [hcollection] at hentry
    have hsound := h.reachable.sound.collection_sound hcollection
    obtain ⟨hid, partition, hpartition, hkey⟩ := MemoryCollection.key_of_keyOf?
      (h.partitions collection hcollection) (hsound.keyed _ hentry) m.collection
    have hread : session.store.pointRead m.collection key.id partition = .ok (some document) := by
      simp only [MemoryStore.pointRead, hcollection, hkey, ok_bind,
        hsound.ascending.lookup_of_mem hentry]
    have hanswer : memoryStore.answer (.pointRead m.collection key.id partition) session.store
        = (.ok (some document), session.store) := by
      change (session.store.pointRead m.collection key.id partition, session.store) = _
      rw [hread]
    obtain ⟨later, hrun, -⟩ := EngineM.runOn_pointRead hanswer
    refine ⟨key.id, later, hid, ?_⟩
    rw [pointRead, EngineM.runOn_bind, runOn_pointPartition hpartition]
    exact hrun

/-! ## New stores -/

/-- A collection that is partitioned by what a document names takes that document in. -/
theorem partitionOf_ofDocument (h : Partition.ofDocument m document = .ok partition) (id : String) :
    ∃ text, MemoryCollection.partitionOf { partitionField := partition.map (·.field) } id document
      partition = .ok text := by
  unfold Partition.ofDocument at h
  split at h
  · cases h
    exact ⟨_, rfl⟩
  · dsimp only at h
    split at h
    · next value hvalue =>
      cases h
      refine ⟨MemoryCollection.partitionText value, ?_⟩
      rw [MemoryCollection.partitionOf]
      dsimp only [Option.map_some]
      rw [hvalue]
      exact if_pos rfl
    · cases h

/-- A document that is added to a new store is all that is stored. -/
theorem store_upserts_new (config : EngineConfig) {id : String} (hid : Document.id m document = .ok id)
    (hpartition : Partition.ofDocument m document = .ok partition) :
    ∃ key, ((inMemory m config).upserts [document] { store := {} }).store
      = MemoryStore.put {} m.collection {
        partitionField := partition.map (·.field), documents := [(key, document)] } := by
  obtain ⟨value, hvalue, htext⟩ := Document.id_eq_ok_iff.mp hid
  obtain ⟨text, hown⟩ := partitionOf_ofDocument hpartition id
  refine ⟨⟨text, id⟩, (store_upsert config _ hpartition).1.trans ?_⟩
  have hnone : MemoryStore.collection? {} m.collection = none := rfl
  rw [MemoryStore.upsert, hvalue, Option.bind_some, htext, hnone]
  dsimp only [Option.getD_none]
  rw [hown]
  rfl

/-- What is added to a new store is read by its identifier. -/
theorem upserts_new (config : EngineConfig) {id : String} (hid : Document.id m document = .ok id)
    (hpartition : Partition.ofDocument m document = .ok partition) :
    let written := (inMemory m config).upserts [document] { store := {} }
    written.store.Addressable ∧ (written.store.entries m.collection).map (·.2) = [document] ∧
    ∃ later, ((inMemory m config).pointRead id (m.partitionValue? document)).runOn written
      = (.ok (some document), later) := by
  intro written
  obtain ⟨key, hstore⟩ := store_upserts_new config hid hpartition
  have hstored : (written.store.entries m.collection).map (·.2) = [document] := by
    rw [hstore, MemoryStore.entries, MemoryStore.collection?_put_self]
    rfl
  have hfits : written.store.Addressable := by
    rw [hstore]
    exact MemoryStore.addressable_of_total (show 1 ≤ UInt64.size by decide)
  obtain ⟨own, later, hown, hread⟩ :=
    ((stocked_new m config).upserts [document]).runOn_pointRead (hstored ▸ List.mem_singleton_self _)
  obtain rfl := Except.ok.inj (hid.symm.trans hown)
  exact ⟨hfits, hstored, later, hread⟩

end Engine

end DerivedQuery
