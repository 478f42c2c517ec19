import DerivedQuery.Command.Error
import DerivedQuery.Command.Path
import DerivedQuery.Config
import DerivedQuery.Entity.Metadata
import DerivedQuery.Store.Memory

/-!
# Configuration files

A configuration file declares entities, names a file of documents to start with, and holds the settings
of the engine beside these members.

The file of documents holds lists of documents by collection. Every declared entity has its collection,
partitioned by the entity's partition key, whether there are documents for it or not.
-/

namespace DerivedQuery.Command

open Json (Form)

/-- A configuration. -/
structure Config where
  engine : EngineConfig
  entities : List EntityDescription
  /-- Path of the documents to start with, relative to the configuration file. -/
  seedFile : Option String
  deriving Repr

namespace Config

/-! ## Reading -/

/-- The members that are read on their own. All others are settings of the engine or ignored, but in
either case have to have a value. -/
def ownNames : List String := ["collections", "seed_file"]

/-- The members have values, except those that are read on their own. -/
def othersHaveValues (members : List (Option String × Form)) : Bool :=
  members.all fun (name, form) =>
    name.any ownNames.contains || (form.value? (Json.maxLevels - 1)).isSome

/-- The configuration that a form stands for. -/
def ofForm? : Form → Option Config
  | .object members => do
    if !members.all (·.1.isSome) ∨ !othersHaveValues members then none
    else
      let entities ← Form.field? members "collections"
      let seedFile ← Form.field? members "seed_file"
      let entity? := EntityDescription.ofForm? (Json.maxLevels - 2)
      some {
        engine := ← EngineConfig.ofFields? (← EngineConfig.fieldNames.mapM (Form.field? members))
        entities := ← entities.elim (some []) (·.list? entity?)
        seedFile := ← seedFile.elim (some none) (·.nullableString?) }
  | _ => none

/-- Lists of documents by collection, in order of the collections' names. -/
def seed? (text : String) : Option (List (String × List Document)) := do
  (← Form.ofText? text).map? (·.list? (·.value? (Json.maxLevels - 2)))

/-! ## Checking -/

/-- The entities resolve, and no two have one name. `seen` holds the names of those before. -/
def checkEntities (seen : List String) : List EntityDescription → Except CommandError Unit
  | [] => .ok ()
  | entity :: rest => do
    if entity.name ∈ seen then .error (.duplicateEntity entity.name)
    else
      let _ ← (EntityMetadata.ofDescription entity).mapError (.invalidEntity entity.name)
      checkEntities (entity.name :: seen) rest

/-- Checks the settings, then the entities. -/
def validate (config : Config) : Except CommandError Unit := do
  config.engine.validate.mapError .settings
  checkEntities [] config.entities

/-- The configuration that a text stands for, if it passes the checks. -/
def ofText (text : String) : Except CommandError Config := do
  match (Form.ofText? text).bind ofForm? with
  | none => .error .configMalformed
  | some config =>
    config.validate
    .ok config

/-! ## Use -/

/-- The metadata of the entity with a name. -/
def entity (config : Config) (name : String) : Except CommandError EntityMetadata :=
  match config.entities.find? (·.name == name) with
  | some entity => (EntityMetadata.ofDescription entity).mapError .settings
  | none => .error (.unknownEntity name)

/-- A store with the empty collections of all entities. -/
def emptyStore (config : Config) : Except CommandError MemoryStore :=
  config.entities.foldlM (fun store entity => do
    let m ← (EntityMetadata.ofDescription entity).mapError .settings
    .ok (store.create m.collection (m.partitionKey.map m.documentField))) {}

/-- Adds documents to a collection. -/
def fill (store : MemoryStore) (collection : String) (documents : List Document) :
    Except CommandError MemoryStore :=
  documents.foldlM (fun store document =>
    match store.insert collection document with
    | (.ok (), store) => .ok store
    | (.error error, _) => .error (.seedRefused collection error)) store

/-- Adds documents to collections. -/
def fillAll (store : MemoryStore) (seed : List (String × List Document)) :
    Except CommandError MemoryStore :=
  seed.foldlM (fun store entry => fill store entry.1 entry.2) store

end Config

end DerivedQuery.Command
