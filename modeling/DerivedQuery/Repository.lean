import DerivedQuery.Engine.Basic

/-!
# Repositories

An engine that speaks of entities instead of documents: entities are converted on the way in, documents
on the way out. An entity without an identifier is given a fresh one when it is saved; where fresh
identifiers come from is for the owner of the repository to say.
-/

namespace DerivedQuery

/-- An engine with a source of identifiers. -/
structure Repository (σ : Type) where
  engine : Engine σ
  /-- The identifier to make up after so many others. -/
  freshId : Nat → String

namespace Repository

variable {σ : Type}

/-- The repository of an entity. The configuration has to make sense, and it is looked at first. -/
def ofDescription (store : DocumentStore σ) (freshId : Nat → String) (config : EngineConfig)
    (description : EntityDescription) : Except QueryError (Repository σ) := do
  config.validate
  let metadata ← EntityMetadata.ofDescription description
  .ok { engine := { store, metadata, config }, freshId }

variable (r : Repository σ)

/-- The entity of a document. -/
def toEntity (document : Document) : Except QueryError Json :=
  Document.toEntity r.engine.metadata document

/-- Gives a document that lacks an identifier a fresh one. -/
def assignId (document : Document) : EngineM σ Document := do
  let session ← get
  let (document, used) ← EngineM.ofExcept
    (Document.assignId r.engine.metadata (r.freshId session.drawn) document)
  if used then set { session with drawn := session.drawn + 1 }
  return document

/-- Adds or replaces an entity, and gives it back as it is stored. -/
def save (entity : Json) : EngineM σ Json := do
  let document ← EngineM.ofExcept (Document.ofEntity r.engine.metadata entity)
  let document ← r.assignId document
  r.engine.upsert document
  EngineM.ofExcept (r.toEntity document)

/-- Saves entities one after the other, up to the first failure. -/
def saveAll (entities : List Json) : EngineM σ (List Json) := entities.mapM r.save

/-- All entities that a call selects. -/
def findAllBy (method : String) (call : Call) : EngineM σ (List Json) := do
  let pages ← r.engine.findAll method call
  pages.collect r.engine.store r.toEntity

/-- All entities that a method with some arguments selects. -/
def findBy (method : String) (arguments : List Json) : EngineM σ (List Json) :=
  r.findAllBy method { arguments }

/-- One page of the entities that a call selects. -/
def findPageBy (method : String) (call : Call) : EngineM σ (Page Json) := do
  let page ← r.engine.find method call
  EngineM.ofExcept (page.mapM r.toEntity)

/-- Whether a method with some arguments selects anything. -/
def existsBy (method : String) (arguments : List Json) : EngineM σ Bool :=
  r.engine.hasMatch method { arguments }

/-- How many entities a method with some arguments selects. -/
def countBy (method : String) (arguments : List Json) : EngineM σ Nat :=
  r.engine.count method { arguments }

/-- Removes the entities that a method with some arguments selects. -/
def deleteBy (method : String) (arguments : List Json) : EngineM σ Nat :=
  r.engine.delete method { arguments }

/-- Runs a call by the action of its operation. -/
def invoke (method : String) (call : Call) : EngineM σ (Outcome Json) := do
  match ← r.engine.invoke method call with
  | .found page => return .found (← EngineM.ofExcept (page.mapM r.toEntity))
  | .exists answer => return .exists answer
  | .count number => return .count number
  | .deleted number => return .deleted number

/-- The next page of a walk, as entities. -/
def nextPage (pages : Pages) :
    StateM (Session σ) (Option (Except QueryError (Page Json)) × Pages) := do
  let (outcome, pages) ← pages.next r.engine.store
  return (outcome.map fun page => page.bind (·.mapM r.toEntity), pages)

/-- The entity with an identifier, in the partition with a value. -/
def findById (id : String) (partition : Option Json) : EngineM σ (Option Json) := do
  match ← r.engine.pointRead id partition with
  | none => return none
  | some document => return some (← EngineM.ofExcept (r.toEntity document))

/-- The entities with any of some identifiers. -/
def findAllById (ids : List String) : EngineM σ (List Json) := do
  let documents ← r.engine.findByIds ids
  EngineM.ofExcept (documents.mapM r.toEntity)

/-- Removes the entity with an identifier, in the partition with a value. -/
def deleteById (id : String) (partition : Option Json) : EngineM σ Unit :=
  r.engine.pointDelete id partition

/-- Removes the stored copy of an entity. -/
def delete (entity : Json) : EngineM σ Unit := do
  let document ← EngineM.ofExcept (Document.ofEntity r.engine.metadata entity)
  r.engine.deleteDocument document

/-- Removes entities one after the other, up to the first failure, and counts them. -/
def deleteEntities (entities : List Json) : EngineM σ Nat := do
  entities.forM r.delete
  return entities.length

/-- All entities, in some order. -/
def findEverything (sort : Option Sorting) : EngineM σ (List Json) :=
  r.findAllBy "findAll" { sort }

/-- How many entities there are. -/
def countEverything : EngineM σ Nat := r.engine.countAll

/-- Removes all entities. -/
def deleteEverything : EngineM σ Nat := r.engine.deleteAll

end Repository

end DerivedQuery
