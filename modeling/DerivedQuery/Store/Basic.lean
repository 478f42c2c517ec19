import DerivedQuery.Document.Lookup
import DerivedQuery.Plan.Partition
import DerivedQuery.Plan.Query

/-!
# Document stores

A document store is asked by calls, and each kind of call has its own kind of answer. A store is known
only by how it answers: `DocumentStore σ` says what the answer to a call is in a state and what state
the call leaves, so it may be anything from a store in memory to one that answers from a script.
-/

namespace DerivedQuery

/-- Some results of a query, with the mark from which the rest can be asked for. -/
structure Batch where
  documents : List Document := []
  continuation : Option ContinuationToken := none
  deriving Repr

/-- What a store can be asked. -/
inductive StoreCall where
  /-- A page of the documents that a query selects. -/
  | execute (collection : String) (query : Query)
  /-- A document by its identifier. -/
  | pointRead (collection id : String) (partition : Option PartitionBinding)
  /-- Removing a document by its identifier. -/
  | pointDelete (collection id : String) (partition : Option PartitionBinding)
  /-- How many documents a query selects, or how many there are. -/
  | count (collection : String) (query : Option Query)
  /-- Adding or replacing a document. -/
  | upsert (collection : String) (document : Document) (partition : Option PartitionBinding)
  deriving Repr

namespace StoreCall

/-- The kind of answer to a call. A removal answers whether there was such a document. -/
@[reducible] def Answer : StoreCall → Type
  | execute .. => Batch
  | pointRead .. => Option Document
  | pointDelete .. => Bool
  | count .. => Nat
  | upsert .. => Unit

/-- The name of a kind of call. -/
def name : StoreCall → String
  | execute .. => "execute"
  | pointRead .. => "point_read"
  | pointDelete .. => "point_delete"
  | count .. => "count"
  | upsert .. => "upsert"

/-- The collection that a call is about. -/
def collection : StoreCall → String
  | execute collection _ | pointRead collection .. | pointDelete collection ..
  | count collection _ | upsert collection .. => collection

end StoreCall

/-- How a store with states `σ` answers. -/
structure DocumentStore (σ : Type) where
  answer : (call : StoreCall) → σ → Except StoreError call.Answer × σ
  /-- How many batches a walk through the results of one query may take in a state. -/
  walkBound : σ → Nat

end DerivedQuery
