import DerivedQuery.Engine.Session

/-!
# Access to documents

The requests that an engine makes of its store, each with what is counted and logged about it.
-/

namespace DerivedQuery.EngineM

variable {σ : Type} (store : DocumentStore σ)

/-- The text of a truth value in a log. -/
def truth (b : Bool) : String := if b then "true" else "false"

/-- The page that a query is about. -/
def fetchPage (query : Query) : EngineM σ (Page Document) := do
  let batch : Batch ← ask store (.execute query.collection query)
  let page := Page.ofState query.page batch.documents batch.continuation
  tally fun metrics => { metrics with
    pagesFetched := metrics.pagesFetched + 1
    documentsReturned := metrics.documentsReturned + page.items.length }
  note .pageFetched [("collection", query.collection), ("items", toString page.items.length),
    ("has_next", truth (!page.isLast))]
  return page

/-- Whether a query selects anything: its first page of one document is not empty. -/
def probe (query : Query) : EngineM σ Bool := do
  let page ← fetchPage store (query.withPage (query.page.restart 1))
  return !page.items.isEmpty

/-- How many documents a query selects. -/
def countMatches (query : Query) : EngineM σ Nat := ask store (.count query.collection (some query))

/-- How many documents a collection has. -/
def countAll (collection : String) : EngineM σ Nat := ask store (.count collection none)

/-- The document with an identifier. -/
def pointRead (collection id : String) (partition : Option PartitionBinding) :
    EngineM σ (Option Document) := do
  let found : Option Document ← ask store (.pointRead collection id partition)
  note .pointRead [("collection", collection), ("id", id), ("found", truth found.isSome)]
  return found

/-- Removes the document with an identifier and says whether there was one. -/
def pointDelete (collection id : String) (partition : Option PartitionBinding) :
    EngineM σ Bool := do
  let deleted : Bool ← ask store (.pointDelete collection id partition)
  if deleted then
    tally fun metrics => { metrics with documentsDeleted := metrics.documentsDeleted + 1 }
  note .pointDelete [("collection", collection), ("id", id), ("deleted", truth deleted)]
  return deleted

/-- Adds or replaces a document. -/
def upsert (collection : String) (document : Document) (partition : Option PartitionBinding) :
    EngineM σ Unit := ask store (.upsert collection document partition)

end DerivedQuery.EngineM
