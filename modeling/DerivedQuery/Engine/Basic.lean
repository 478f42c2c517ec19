import DerivedQuery.Config
import DerivedQuery.Document.Conversion
import DerivedQuery.Engine.Pages
import DerivedQuery.Method.Parser
import DerivedQuery.Plan.Explain

/-!
# Engines

An engine answers calls by method name for one entity over one store. A call is prepared (its name is
parsed, once for each name), assembled (the sort order and page are chosen, the operation is checked, the
arguments are bound) and then run.

A call that is refused on the way is counted and logged, and the store is not asked.
-/

namespace DerivedQuery

/-- What a caller hands over beside the method name. -/
structure Call where
  arguments : List Json := []
  sort : Option Sorting := none
  page : Option PageRequest := none

/-- The result of a call, by the action of its operation. -/
inductive Outcome (α : Type) where
  | found (page : Page α)
  | exists (answer : Bool)
  | count (number : Nat)
  | deleted (number : Nat)

/-- Answers calls for one entity over a store with states `σ`. -/
structure Engine (σ : Type) where
  store : DocumentStore σ
  metadata : EntityMetadata
  config : EngineConfig := {}

namespace Engine

open EngineM (note tally)

variable {σ α : Type} (e : Engine σ)

/-! ## Planning -/

/-- Refuses a call: counts it, logs it and fails. -/
def reject (method : String) (error : QueryError) : EngineM σ α := do
  tally fun metrics => { metrics with queriesRejected := metrics.queriesRejected + 1 }
  note .queryRejected [("code", error.code), ("entity", e.metadata.typeName), ("method", method),
    ("reason", error.message)]
  throw error

/-- Refuses a call if a step of its planning fails. -/
def check (method : String) : Except QueryError α → EngineM σ α
  | .ok a => return a
  | .error error => e.reject method error

/-- The operation of a method name, parsed now if it has not been before. -/
def prepare (method : String) : EngineM σ Operation := do
  match (← get).prepared.lookup method with
  | some operation => return operation
  | none =>
    let operation ← e.check method (Method.parse e.metadata method)
    tally fun metrics => { metrics with queriesParsed := metrics.queriesParsed + 1 }
    note .queryParsed [("action", operation.action.name),
      ("criteria", toString operation.criteria.length), ("entity", e.metadata.typeName),
      ("method", method)]
    modify fun session => { session with prepared := (method, operation) :: session.prepared }
    return operation

/-- The query of an operation for a call. -/
def plan (operation : Operation) (call : Call) : Except QueryError Query := do
  let page := PageState.choose e.config.defaultPageSize (some operation.order) call.sort call.page
  let order ← Capability.validate e.metadata operation page.sort
  Query.assemble e.metadata operation call.arguments order page

/-- The query of a call. -/
def assemble (method : String) (call : Call) : EngineM σ Query := do
  let operation ← e.prepare method
  let query ← e.check method (e.plan operation call)
  note .queryAssembled [("collection", query.collection), ("method", method),
    ("page_size", toString query.page.size)]
  return query

/-- The query of a call that has to have a certain action. -/
def assembleFor (action : Action) (method : String) (call : Call) : EngineM σ Query := do
  let query ← e.assemble method call
  if query.action = action then return query
  else e.reject method (.invalidMethodName method (.otherAction query.action action))

/-- The query text of a call. -/
def render (method : String) (call : Call) : EngineM σ SqlQuery := do
  return Sql.render (← e.assemble method call)

/-- What a call would do. A refusal is part of the answer. -/
def explain (method : String) (call : Call) : EngineM σ ExplainPlan :=
  tryCatch
    (do
      let query ← e.assemble method call
      return .accepted query (Partition.resolve? e.metadata query.tree))
    fun error => return .rejected error

/-! ## Calls by method name -/

/-- One page of the documents that a call selects. -/
def find (method : String) (call : Call) : EngineM σ (Page Document) := do
  EngineM.fetchPage e.store (← e.assembleFor .find method call)

/-- A walk through the documents that a call selects. -/
def findAll (method : String) (call : Call) : EngineM σ Pages := do
  return Pages.ofQuery (← e.assembleFor .find method call)

/-- Whether a call selects anything. -/
def hasMatch (method : String) (call : Call) : EngineM σ Bool := do
  EngineM.probe e.store (← e.assembleFor .exists method call)

/-- How many documents a call selects. -/
def count (method : String) (call : Call) : EngineM σ Nat := do
  EngineM.countMatches e.store (← e.assembleFor .count method call)

/-- Removes a document that a query has found, within its own partition, and says whether it was still
there. -/
def deleteFound (collection : String) (document : Document) : EngineM σ Bool := do
  let id ← EngineM.ofExcept (Document.id e.metadata document)
  let partition ← EngineM.ofExcept (Partition.ofDocument e.metadata document)
  EngineM.pointDelete e.store collection id partition

/-- Removes documents one after the other and counts those that were still there. -/
def deleteEach (collection : String) : List Document → EngineM σ Nat
  | [] => return 0
  | document :: rest => do
    let deleted ← e.deleteFound collection document
    let number ← deleteEach collection rest
    return (if deleted then 1 else 0) + number

/-- Removes the documents that a query selects, whatever its page: collects them all first, then removes
them. -/
def deleteMatches (query : Query) : EngineM σ Nat := do
  let pages := Pages.ofQuery (query.withPage (query.page.restart query.page.size))
  let found ← pages.collect e.store .ok
  let deleted ← e.deleteEach query.collection found
  note .deleteByQuery [("collection", query.collection), ("matched", toString found.length),
    ("deleted", toString deleted)]
  return deleted

/-- Removes the documents that a call selects, which has to name their partition. -/
def delete (method : String) (call : Call) : EngineM σ Nat := do
  let query ← e.assembleFor .delete method call
  let _ ← e.check method (Partition.require e.metadata query.tree)
  e.deleteMatches query

/-- Runs a call by the action of its operation. -/
def invoke (method : String) (call : Call) : EngineM σ (Outcome Document) := do
  match (← e.prepare method).action with
  | .find => return .found (← e.find method call)
  | .exists => return .exists (← e.hasMatch method call)
  | .count => return .count (← e.count method call)
  | .delete => return .deleted (← e.delete method call)

/-! ## Calls by identifier -/

/-- The partition of an operation on one document, from a value for the partition key. -/
def pointPartition (method : String) (value : Option Json) :
    EngineM σ (Option PartitionBinding) :=
  let predicates := match e.metadata.partitionKey, value with
    | some key, some value => [{
        property := key, field := e.metadata.documentField key, operator := .equal,
        ignoreCase := false, values := [value] : Predicate }]
    | _, _ => []
  e.check method (Partition.require e.metadata ⟨.and, predicates⟩)

/-- The document with an identifier, in the partition with a value. -/
def pointRead (id : String) (partition : Option Json) : EngineM σ (Option Document) := do
  let binding ← e.pointPartition "findById" partition
  EngineM.pointRead e.store e.metadata.collection id binding

/-- Removes a document that has to be there. -/
def deleteOne (id : String) (partition : Option PartitionBinding) : EngineM σ Unit := do
  if ← EngineM.pointDelete e.store e.metadata.collection id partition then return ()
  else throw (.storeAccess (.notFound
    ("document '" ++ id ++ "' in '" ++ e.metadata.collection ++ "'")))

/-- Removes the document with an identifier, in the partition with a value. -/
def pointDelete (id : String) (partition : Option Json) : EngineM σ Unit := do
  let binding ← e.pointPartition "deleteById" partition
  e.deleteOne id binding

/-- Removes the stored copy of a document. -/
def deleteDocument (document : Document) : EngineM σ Unit := do
  let id ← EngineM.ofExcept (Document.id e.metadata document)
  let binding ← e.check "delete" (Partition.ofDocument e.metadata document)
  e.deleteOne id binding

/-- The method name that selects by a list of identifiers. -/
def findByIdsMethod : String :=
  "findBy" ++ String.ofList (Text.capitalize e.metadata.idProperty.leaf.toList) ++ "In"

/-- The documents with any of some identifiers, in all partitions. -/
def findByIds (ids : List String) : EngineM σ (List Document) := do
  if ids.isEmpty then return []
  else
    let pages ← e.findAll e.findByIdsMethod { arguments := [.array (ids.map .string)] }
    pages.collect e.store .ok

/-! ## Whole collections -/

/-- Adds or replaces a document, in the partition that it names. -/
def upsert (document : Document) : EngineM σ Unit := do
  let binding ← EngineM.ofExcept (Partition.ofDocument e.metadata document)
  EngineM.upsert e.store e.metadata.collection document binding

/-- How many documents there are. -/
def countAll : EngineM σ Nat := EngineM.countAll e.store e.metadata.collection

/-- Removes all documents, each within its own partition. -/
def deleteAll : EngineM σ Nat := do
  e.deleteMatches (← e.assemble "deleteAll" {})

end Engine

end DerivedQuery
