import Mathlib.Data.List.Induction
import DerivedQuery.Proofs.Command.Steps
import DerivedQuery.Proofs.Engine.Verbs
import DerivedQuery.Proofs.Entity.Metadata
import DerivedQuery.Proofs.Json.Reading
import DerivedQuery.Proofs.Store.Keys

/-!
# The store that a configuration describes

A configuration that passes the checks resolves: all its entities have metadata, each under its own name
(`Config.resolves_of_validate`). The store gets the collection of each entity in turn, and a collection
that is created again is replaced, so of entities with one collection the last one says how it is
partitioned (`Config.fieldOf?`). Documents are added to the collections as they are
(`Config.filled_fillAll`).

So the collection of an entity fits it if and only if the last entity with that collection partitions it
in the same way, and then removals by query remove what they select (`seeded_collections_fit_iff`). The
checks do not see to that: they compare the names of entities, not those of collections.
-/

namespace DerivedQuery

namespace EntityMetadata

/-- The document field by which the entity has its collection partitioned. -/
def partitionField (m : EntityMetadata) : Option String := m.partitionKey.map m.documentField

/-- The collection of the entity is there, and partitioned as the entity has it. -/
def Fits (m : EntityMetadata) (store : MemoryStore) : Prop :=
  ∃ collection, store.collection? m.collection = some collection ∧
    collection.partitionField = m.partitionField

theorem Fits.partitions {m : EntityMetadata} {store : MemoryStore} (h : m.Fits store) :
    m.Partitions store := by
  obtain ⟨collection, hfound, hfield⟩ := h
  intro other hother
  cases hfound.symm.trans hother
  exact hfield

end EntityMetadata

/-! ## Adding documents -/

/-- All collections are still there, partitioned as they were, and no more has been done than the store
allows. -/
structure MemoryStore.Filled (store later : MemoryStore) : Prop where
  reachable : store.Reachable → later.Reachable
  fields : ∀ {name collection}, store.collection? name = some collection →
    ∃ found, later.collection? name = some found ∧
      found.partitionField = collection.partitionField

namespace MemoryStore.Filled

variable {store later last : MemoryStore}

theorem refl : store.Filled store := ⟨id, fun h => ⟨_, h, rfl⟩⟩

theorem trans (h : store.Filled later) (h' : later.Filled last) : store.Filled last where
  reachable hreachable := h'.reachable (h.reachable hreachable)
  fields hfound := by
    obtain ⟨found, hfound, hfield⟩ := h.fields hfound
    obtain ⟨found', hfound', hfield'⟩ := h'.fields hfound
    exact ⟨found', hfound', hfield'.trans hfield⟩

theorem upsert (store : MemoryStore) (name : String) (document : Document)
    (partition : Option PartitionBinding) :
    store.Filled (store.upsert name document partition).2 where
  reachable hreachable := .answer hreachable (.upsert name document partition)
  fields := by
    intro other collection hfound
    by_cases hname : other = name
    · subst hname
      obtain ⟨later, hlater⟩ : ∃ later,
          (store.upsert other document partition).2.collection? other = some later := by
        unfold MemoryStore.upsert
        split
        · exact ⟨collection, hfound⟩
        · dsimp only
          split
          · exact ⟨_, collection?_put_self _ _ _⟩
          · exact ⟨_, collection?_put_self _ _ _⟩
      refine ⟨later, hlater, ?_⟩
      rw [partitionField_upsert hlater, target, hfound, Option.getD_some]
    · refine ⟨collection, ?_, rfl⟩
      unfold MemoryStore.upsert
      split
      · exact hfound
      · dsimp only
        split
        · exact (collection?_put_of_ne _ hname _).trans hfound
        · exact (collection?_put_of_ne _ hname _).trans hfound

end MemoryStore.Filled

namespace Command.Config

open EntityMetadata (ofDescription)

theorem filled_fillAll {store later : MemoryStore} {seed : List (String × List Document)}
    (h : fillAll store seed = .ok later) : store.Filled later := by
  refine foldlM_keeps (P := store.Filled) (fun before entry after hbefore hfill => ?_) .refl h
  refine foldlM_keeps (P := store.Filled) (fun before document after hbefore hinsert => ?_) hbefore hfill
  have hadd := MemoryStore.Filled.upsert before entry.1 document none
  unfold MemoryStore.insert at hinsert
  split at hinsert
  · next hsame =>
    cases hinsert
    rw [hsame] at hadd
    exact hbefore.trans hadd
  · cases hinsert

/-! ## Entities -/

/-- Entities that pass the checks resolve, and have names of their own. -/
theorem of_checkEntities {seen : List String} {entities : List EntityDescription}
    (h : checkEntities seen entities = .ok ()) :
    (∃ resolved, entities.mapM ofDescription = .ok resolved) ∧
      (entities.map (·.name)).Nodup ∧ ∀ entity ∈ entities, entity.name ∉ seen := by
  induction entities generalizing seen with
  | nil => exact ⟨⟨[], rfl⟩, List.nodup_nil, List.forall_mem_nil _⟩
  | cons entity rest ih =>
    rw [checkEntities] at h
    obtain ⟨hnew, h⟩ := ite_error_eq_ok_iff.mp h
    obtain ⟨m, hm, hrest⟩ := bind_eq_ok_iff.mp h
    have hm := mapError_eq_ok_iff.mp hm
    obtain ⟨⟨resolved, hresolved⟩, hnodup, hunseen⟩ := ih hrest
    refine ⟨⟨m :: resolved, ?_⟩, List.nodup_cons.mpr ⟨?_, hnodup⟩, List.forall_mem_cons.mpr ⟨hnew, ?_⟩⟩
    · rw [List.mapM_cons, hm, ok_bind, hresolved, ok_bind]
      rfl
    · rintro hmem
      obtain ⟨other, hother, hname⟩ := List.mem_map.mp hmem
      exact hunseen other hother (hname ▸ List.mem_cons_self)
    · exact fun other hother hseen => hunseen other hother (List.mem_cons_of_mem _ hseen)

/-- Each entity of a configuration that passes the checks is found under its name. -/
theorem resolves_of_validate {config : Config} (h : config.validate = .ok ()) :
    ∃ entities, config.entities.mapM ofDescription = .ok entities ∧
      ∀ m ∈ entities, config.entity m.typeName = .ok m := by
  obtain ⟨_, -, hcheck⟩ := bind_eq_ok_iff.mp h
  obtain ⟨⟨entities, hresolved⟩, hnodup, -⟩ := of_checkEntities hcheck
  refine ⟨entities, hresolved, fun m hm => ?_⟩
  obtain ⟨description, hdescription, hm⟩ := exists_of_mem_mapM hresolved hm
  have hfind : config.entities.find? (·.name == m.typeName) = some description := by
    rw [EntityMetadata.typeName_of_ofDescription hm]
    cases hfound : config.entities.find? (·.name == description.name) with
    | none => simpa using List.find?_eq_none.mp hfound description hdescription
    | some found =>
      have hname : found.name = description.name := by simpa using List.find?_some hfound
      rw [List.inj_on_of_nodup_map hnodup (List.mem_of_find?_eq_some hfound) hdescription hname]
  rw [Config.entity, hfind]
  dsimp only
  rw [hm]
  rfl

/-! ## Collections -/

/-- The field by which a collection is partitioned that entities have: the last one of them counts. -/
def fieldOf? (entities : List EntityMetadata) (collection : String) : Option (Option String) :=
  (entities.map fun m => (m.collection, m.partitionField)).reverse.lookup collection

/-- An entity's collection is partitioned as an entity with this collection has it. -/
theorem exists_of_fieldOf? {entities : List EntityMetadata} {m : EntityMetadata} (hm : m ∈ entities) :
    ∃ owner ∈ entities, owner.collection = m.collection ∧
      fieldOf? entities m.collection = some owner.partitionField := by
  unfold fieldOf?
  cases hfield : (entities.map fun m => (m.collection, m.partitionField)).reverse.lookup
      m.collection with
  | none =>
    have hnone := List.lookup_eq_none_iff.mp hfield (m.collection, m.partitionField)
      (List.mem_reverse.mpr (List.mem_map_of_mem hm))
    simp at hnone
  | some field =>
    have hmem := List.mem_reverse.mp (Entries.mem_of_lookup_eq_some hfield)
    obtain ⟨owner, howner, heq⟩ := List.mem_map.mp hmem
    obtain ⟨hcollection, rfl⟩ := Prod.mk.inj heq
    exact ⟨owner, howner, hcollection, rfl⟩

/-- The empty collections of entities. -/
def emptyCollections (entities : List EntityMetadata) : MemoryStore :=
  entities.foldl (fun store m => store.create m.collection m.partitionField) {}

theorem emptyStore_eq {config : Config} {entities : List EntityMetadata}
    (h : config.entities.mapM ofDescription = .ok entities) :
    config.emptyStore = .ok (emptyCollections entities) := by
  unfold emptyStore emptyCollections
  generalize ({} : MemoryStore) = store
  rw [mapM_eq_ok_iff] at h
  generalize config.entities = descriptions at h
  induction h generalizing store with
  | nil => rfl
  | cons hfirst hrest ih =>
    rw [List.foldlM_cons, List.foldl_cons, hfirst]
    exact ih _

theorem reachable_emptyCollections (entities : List EntityMetadata) :
    (emptyCollections entities).Reachable := by
  unfold emptyCollections
  suffices h : ∀ store : MemoryStore, store.Reachable →
      (entities.foldl (fun store m => store.create m.collection m.partitionField) store).Reachable from
    h {} .new
  induction entities with
  | nil => exact fun _ h => h
  | cons m rest ih => exact fun store h => ih _ (h.create m.collection m.partitionField)

/-- An empty collection is partitioned as the last entity has it. -/
theorem collection?_emptyCollections (entities : List EntityMetadata) (name : String) :
    (emptyCollections entities).collection? name
      = (fieldOf? entities name).map fun field => { partitionField := field } := by
  induction entities using List.reverseRecOn with
  | nil => rfl
  | append_singleton before m ih =>
    unfold emptyCollections fieldOf? at *
    rw [List.foldl_append, List.map_append, List.reverse_append, List.foldl_cons, List.foldl_nil,
      List.map_singleton, List.reverse_singleton, List.singleton_append, List.lookup_cons]
    by_cases hname : name = m.collection
    · subst hname
      rw [MemoryStore.create, MemoryStore.collection?_put_self, beq_self_eq_true]
      rfl
    · rw [MemoryStore.create, MemoryStore.collection?_put_of_ne _ hname, beq_false_of_ne hname, ih]

end Command.Config

namespace Command

open Config (fieldOf?)

variable {files : FileReader Id} {path : String} {config : Config} {store : MemoryStore}
  {entities : List EntityMetadata}

/-- The store of a configuration is filled from the empty collections of its entities. -/
theorem filled_of_seededStore
    (hresolved : config.entities.mapM EntityMetadata.ofDescription = .ok entities)
    (hstore : (seededStore files path config).ending = .ok store) :
    (Config.emptyCollections entities).Filled store := by
  rw [ending_seededStore, Config.emptyStore_eq hresolved, ok_bind] at hstore
  obtain ⟨seed, -, hfill⟩ := bind_eq_ok_iff.mp hstore
  exact Config.filled_fillAll hfill

theorem fits_iff_of_filled (h : (Config.emptyCollections entities).Filled store)
    {m : EntityMetadata} (hm : m ∈ entities) :
    m.Fits store ↔ fieldOf? entities m.collection = some m.partitionField := by
  obtain ⟨owner, -, -, hfield⟩ := Config.exists_of_fieldOf? hm
  have hempty := Config.collection?_emptyCollections entities m.collection
  rw [hfield] at hempty ⊢
  obtain ⟨collection, hfound, hcollection⟩ := h.fields hempty
  dsimp only at hcollection
  constructor
  · rintro ⟨other, hother, hfits⟩
    cases hfound.symm.trans hother
    rw [← hfits, hcollection]
  · intro hsame
    exact ⟨collection, hfound, hcollection.trans (Option.some.inj hsame)⟩

/-- All collections fit if entities with one collection have one field. -/
theorem fits_all_iff (h : (Config.emptyCollections entities).Filled store) :
    (∀ m ∈ entities, m.Fits store) ↔
      ∀ m ∈ entities, ∀ other ∈ entities, other.collection = m.collection →
        other.partitionField = m.partitionField := by
  constructor
  · intro hall m hm other hother hcollection
    have hfield := (fits_iff_of_filled h hm).mp (hall m hm)
    have hfield' := (fits_iff_of_filled h hother).mp (hall other hother)
    rw [hcollection, hfield] at hfield'
    exact (Option.some.inj hfield').symm
  · intro hagree m hm
    obtain ⟨owner, howner, hcollection, hfield⟩ := Config.exists_of_fieldOf? hm
    rw [fits_iff_of_filled h hm, hfield, hagree m hm owner howner hcollection]

/-- **The collections of a configuration fit its entities if and only if entities with one collection
have it partitioned by one field.** Every declared entity is found under its name. Its collection fits it
if the last entity with this collection has it partitioned by the same field; if so, every removal by
query that names its partition removes the documents that it selects, and says how many they are. If the
removal has an order, it is settled for these documents. -/
theorem seeded_collections_fit_iff (hload : (load files path).ending = .ok config)
    (hstore : (seededStore files path config).ending = .ok store) (hfits : store.Addressable) :
    ∃ entities, config.entities.mapM EntityMetadata.ofDescription = .ok entities ∧
      (∀ m ∈ entities, config.entity m.typeName = .ok m ∧
        (m.Fits store ↔ fieldOf? entities m.collection = some m.partitionField)) ∧
      ((∀ m ∈ entities, m.Fits store) ↔
        ∀ m ∈ entities, ∀ other ∈ entities, other.collection = m.collection →
          other.partitionField = m.partitionField) ∧
      ∀ m ∈ entities, m.Fits store → ∀ session : Session MemoryStore, session.store = store →
        ∀ method call query assembled,
          ((Engine.inMemory m config.engine).assemble method call).runOn session
            = (.ok query, assembled) →
          query.action = .delete → (Partition.require m query.tree).isOk →
          OrderKey.Settled query.order (store.matching m.collection query.tree) →
          ∃ later, ((Engine.inMemory m config.engine).delete method call).runOn session
              = (.ok (store.matching m.collection query.tree).length, later) ∧
            later.store = store.without m.collection query.tree ∧
            later.store.matching m.collection query.tree = [] := by
  rw [ending_load] at hload
  obtain ⟨entities, hresolved, hfound⟩ : ∃ entities,
      config.entities.mapM EntityMetadata.ofDescription = .ok entities ∧
        ∀ m ∈ entities, config.entity m.typeName = .ok m := by
    split at hload
    · cases hload
    · exact Config.resolves_of_validate (Config.ofText_eq_ok_iff.mp hload).2
  have hfilled := filled_of_seededStore hresolved hstore
  refine ⟨entities, hresolved, fun m hm => ⟨hfound m hm, fits_iff_of_filled hfilled hm⟩,
    fits_all_iff hfilled, ?_⟩
  rintro m hm hm' session rfl method call query assembled haccepted hdelete hrequire -
  have hsound := (hfilled.reachable (Config.reachable_emptyCollections entities)).sound
  obtain ⟨later, hrun, hleft⟩ := Engine.runOn_delete config.engine session
    ((Engine.inMemory m config.engine).planned_of_assemble haccepted) hdelete hrequire hsound hfits
    hm'.partitions
  exact ⟨later, hrun, hleft, by rw [hleft, MemoryStore.matching_without]⟩

end Command

/-! ## Places

A configuration of two entities with one collection, towns and lakes, that the general statements are
tried on. Towns are kept by country, and lakes by what they say themselves. -/

namespace Places

open Command

/-- An entity with a text as its key, beside the identifier. -/
def description (name key : String) : EntityDescription where
  name
  collection := some "places"
  partitionKey := some key
  properties := Entries.ofList [("id", .string), (key, .string)]

/-- The metadata of such an entity. -/
def metadata (name key : String) : EntityMetadata where
  typeName := name
  collection := "places"
  idProperty := ⟨["id"], .string⟩
  partitionKey := some ⟨[key], .string⟩
  properties := PropertyTable.build (Entries.ofList [("id", .string), (key, .string)])

/-- Towns and lakes. -/
def config (key : String) : Config where
  engine := {}
  entities := [description "Town" "country", description "Lake" key]
  seedFile := some "seed.json"

def document (id region : String) : Document :=
  .object [("country", .string "NO"), ("id", .string id), ("region", .string region)]

/-- Two places in one country. -/
def seed : List (String × List Document) := [("places", [document "1" "east", document "2" "west"])]

/-! ### Files -/

def descriptionJson (name key : String) : Json :=
  let text := .object [("type", .string "string")]
  .object [("name", .string name), ("collection", .string "places"), ("partition_key", .string key),
    ("properties", .object [("id", text), (key, text)])]

def configJson (key : String) : Json :=
  .object [("collections", .array [descriptionJson "Town" "country", descriptionJson "Lake" key]),
    ("seed_file", .string "seed.json")]

def seedJson : Json := .object (seed.map fun entry => (entry.1, .array entry.2))

/-- The files of the configuration. -/
def files (key : String) : FileReader Id := fun path =>
  .ok (if path = "./seed.json" then seedJson.compact else (configJson key).compact)

variable (key : String)

theorem load_files (hform : Config.ofForm? (Json.Form.printed (configJson key)) = some (config key))
    (hvalid : (config key).validate = .ok ()) :
    (load (files key) "./docrepo.json").ending = .ok (config key) := by
  have hfile : files key "./docrepo.json" = (.ok (configJson key).compact : Except String String) := rfl
  rw [ending_load, hfile]
  refine Config.ofText_eq_ok_iff.mpr ⟨?_, hvalid⟩
  rw [Json.Form.ofText?_compact, Option.bind_some, hform]

theorem seededStore_files {entities : List EntityMetadata} {store : MemoryStore}
    (hresolved : (config key).entities.mapM EntityMetadata.ofDescription = .ok entities)
    (hfill : Config.fillAll (Config.emptyCollections entities) seed = .ok store) :
    (seededStore (files key) "./docrepo.json" (config key)).ending = .ok store := by
  have hpath : Path.join (Path.directory "./docrepo.json") "seed.json" = "./seed.json" := by
    decide +kernel
  have hseed : Config.seed? seedJson.compact = some seed := by
    rw [Config.seed?, Json.Form.ofText?_compact]
    with_unfolding_all rfl
  have hread : (readSeed (files key) "./docrepo.json" (config key)).ending = .ok seed := by
    have hname : (config key).seedFile = some "seed.json" := rfl
    have hfile : files key "./seed.json" = (.ok seedJson.compact : Except String String) := rfl
    rw [ending_readSeed, hname]
    dsimp only
    rw [hpath, hfile]
    dsimp only
    rw [hseed]
  rw [ending_seededStore, Config.emptyStore_eq hresolved, ok_bind, hread, ok_bind, hfill]

/-- Two places under some texts of their keys. -/
def storeOf (field first second : String) : MemoryStore where
  collections := [("places", {
    partitionField := some field
    documents := [(⟨first, "1"⟩, document "1" "east"), (⟨second, "2"⟩, document "2" "west")] })]

/-- The removal of all towns in Norway. -/
def removal : Query where
  collection := "places"
  projection := "Town"
  action := .delete
  tree := ⟨.and, [Town.norway]⟩
  order := none
  page := ⟨100, none, []⟩

theorem assemble_removal (store : MemoryStore) :
    ∃ assembled, ((Engine.inMemory (metadata "Town" "country") {}).assemble "deleteByCountry"
      { arguments := [.string "NO"] }).runOn { store } = (.ok removal, assembled) := by
  have hmetadata : (Engine.inMemory (metadata "Town" "country") {}).metadata
      = metadata "Town" "country" := rfl
  have hparse : Method.parse (metadata "Town" "country") "deleteByCountry"
      = .ok ⟨"deleteByCountry", .delete, {}, .and, [⟨⟨["country"], .string⟩, .equal, false⟩], []⟩ := by
    with_unfolding_all rfl
  have hplanned : (Engine.inMemory (metadata "Town" "country") {}).planned { store }
      "deleteByCountry" { arguments := [.string "NO"] } = .ok removal := by
    rw [Engine.planned, Engine.faithful_new, hmetadata, hparse]
    rfl
  obtain ⟨assembled, haccepted, -⟩ := (Engine.inMemory (metadata "Town" "country") {}).runOn_assemble
    "deleteByCountry" { arguments := [.string "NO"] } { store }
  exact ⟨assembled, hplanned ▸ haccepted⟩

end Places

namespace Command

open Places

theorem seeded_collections_fit_iff_places :
    ∃ store, (load (files "country") "./docrepo.json").ending = .ok (config "country") ∧
      (seededStore (files "country") "./docrepo.json" (config "country")).ending = .ok store ∧
      (metadata "Town" "country").Fits store ∧ (metadata "Lake" "country").Fits store ∧
      ∃ later, ((Engine.inMemory (metadata "Town" "country") {}).delete "deleteByCountry"
        { arguments := [.string "NO"] }).runOn { store } = (.ok 2, later) := by
  let store := storeOf "country" "\"NO\"" "\"NO\""
  let resolved := [metadata "Town" "country", metadata "Lake" "country"]
  have hresolved : (config "country").entities.mapM EntityMetadata.ofDescription = .ok resolved := by
    with_unfolding_all rfl
  have hload := load_files "country" (by with_unfolding_all rfl) (by with_unfolding_all rfl)
  have hstore : (seededStore (files "country") "./docrepo.json" (config "country")).ending = .ok store :=
    seededStore_files _ hresolved (by with_unfolding_all rfl)
  obtain ⟨entities, hentities, -, hall, hdelete⟩ := seeded_collections_fit_iff hload hstore
    (MemoryStore.addressable_of_total (by decide))
  cases hresolved.symm.trans hentities
  have hfits : ∀ m ∈ resolved, m.Fits store := hall.mpr (by decide)
  obtain ⟨assembled, haccepted⟩ := assemble_removal store
  obtain ⟨later, hrun, -⟩ := hdelete _ List.mem_cons_self (hfits _ List.mem_cons_self) { store } rfl
    _ _ _ _ haccepted rfl rfl OrderKey.settled_none
  have htwo : (store.matching "places" removal.tree).length = 2 := by decide
  exact ⟨store, hload, hstore, hfits _ List.mem_cons_self,
    hfits _ (List.mem_cons_of_mem _ List.mem_cons_self), later, htwo ▸ hrun⟩

/-- Where lakes are kept by region, in the collection of the towns, an accepted removal of two towns
removes none. -/
theorem unfit_delete_removes_nothing :
    ∃ store assembled, (load (files "region") "./docrepo.json").ending = .ok (config "region") ∧
      (seededStore (files "region") "./docrepo.json" (config "region")).ending = .ok store ∧
      (config "region").entity "Town" = .ok (metadata "Town" "country") ∧
      ¬(metadata "Town" "country").Fits store ∧
      ((Engine.inMemory (metadata "Town" "country") {}).assemble "deleteByCountry"
        { arguments := [.string "NO"] }).runOn { store } = (.ok removal, assembled) ∧
      (Partition.require (metadata "Town" "country") removal.tree).isOk ∧
      (store.matching "places" removal.tree).length = 2 ∧
      (((Engine.inMemory (metadata "Town" "country") {}).delete "deleteByCountry"
        { arguments := [.string "NO"] }).runOn { store }).1 = .ok 0 := by
  let store := storeOf "region" "\"east\"" "\"west\""
  have hload := load_files "region" (by with_unfolding_all rfl) (by with_unfolding_all rfl)
  have hresolved : (config "region").entities.mapM EntityMetadata.ofDescription
      = .ok [metadata "Town" "country", metadata "Lake" "region"] := by
    with_unfolding_all rfl
  have hstore : (seededStore (files "region") "./docrepo.json" (config "region")).ending = .ok store :=
    seededStore_files _ hresolved (by with_unfolding_all rfl)
  obtain ⟨assembled, haccepted⟩ := assemble_removal store
  refine ⟨store, assembled, hload, hstore, by with_unfolding_all rfl, ?_, haccepted, rfl, by decide,
    by decide +kernel⟩
  rintro ⟨collection, ⟨⟩, hfield⟩
  exact absurd hfield (by decide)

end Command

end DerivedQuery
