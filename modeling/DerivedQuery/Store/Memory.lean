import DerivedQuery.Document.Conversion
import DerivedQuery.Predicate.Eval
import DerivedQuery.Store.Basic
import DerivedQuery.Store.ResultOrder
import DerivedQuery.Store.SkipToken

/-!
# Stores in memory

A store that keeps its documents in memory. A collection keeps them in order of their keys; a key is the
JSON text of the partition's value, empty if the collection is not partitioned, and the text of the
identifier.

A query is answered by selecting and ordering all documents of a collection and cutting one batch from
the result. The continuation token says how many results come before the next batch, so it means the
same thing only while the store does not change.
-/

namespace DerivedQuery

/-- What tells the documents of a collection apart. -/
structure DocumentKey where
  partition : String
  id : String
  deriving DecidableEq, Repr

namespace DocumentKey

/-- Keys are ordered by partition, then by identifier. -/
instance : LT DocumentKey where
  lt a b := a.partition < b.partition ∨ (a.partition = b.partition ∧ a.id < b.id)

instance : DecidableLT DocumentKey := fun a b =>
  inferInstanceAs (Decidable (a.partition < b.partition ∨ (a.partition = b.partition ∧ a.id < b.id)))

end DocumentKey

/-- The documents of a collection. -/
structure MemoryCollection where
  /-- Dotted path of the field that partitions the collection. -/
  partitionField : Option String
  documents : Entries DocumentKey Document := []
  deriving Repr

/-- Collections by name. -/
structure MemoryStore where
  collections : Entries String MemoryCollection := []
  deriving Repr, Inhabited

namespace MemoryCollection

/-- The documents in order of their keys. -/
def contents (collection : MemoryCollection) : List Document := collection.documents.map (·.2)

/-- The documents that predicates select, in order of their keys. -/
def select (collection : MemoryCollection) (tree : PredicateTree) : List Document :=
  collection.contents.filter tree.holds

/-- The text of a partition's value. -/
def partitionText (value : Json) : String := value.compact

/-- The key of a document with an identifier. A partitioned collection needs the partition, any other
ignores it. -/
def key (collection : MemoryCollection) (name id : String) (partition : Option PartitionBinding) :
    Except StoreError DocumentKey :=
  match collection.partitionField, partition with
  | some _, some binding => .ok ⟨partitionText binding.value, id⟩
  | some field, none =>
    .error (.badRequest ("collection '" ++ name ++ "' is partitioned by '" ++ field ++
      "'; a partition key is required"))
  | none, _ => .ok ⟨"", id⟩

/-- The partition of a document that is to be kept, which has to be the one that was named. -/
def partitionOf (collection : MemoryCollection) (id : String) (document : Document)
    (partition : Option PartitionBinding) : Except StoreError String :=
  match collection.partitionField with
  | none => .ok ""
  | some field =>
    match (document.field? field).filter (!·.isNull) with
    | none =>
      .error (.badRequest ("document '" ++ id ++ "' has no value for partition field '" ++ field ++
        "'"))
    | some value =>
      match partition with
      | none => .ok (partitionText value)
      | some binding =>
        if partitionText binding.value = partitionText value then .ok (partitionText value)
        else
          .error (.badRequest ("partition key " ++ binding.value.compact ++
            " does not match document '" ++ id ++ "'"))

end MemoryCollection

namespace MemoryStore

/-- The collection with a name. -/
def collection? (store : MemoryStore) (name : String) : Option MemoryCollection :=
  store.collections.lookup name

/-- Puts a collection under a name. -/
def put (store : MemoryStore) (name : String) (collection : MemoryCollection) : MemoryStore :=
  ⟨Entries.insert name collection store.collections⟩

/-- Creates an empty collection in place of the one that had its name. -/
def create (store : MemoryStore) (name : String) (partitionField : Option String) : MemoryStore :=
  store.put name { partitionField }

/-- How many documents a collection has; none if there is no such collection. -/
def size (store : MemoryStore) (name : String) : Nat :=
  (store.collection? name).elim 0 (·.documents.length)

/-- A batch of some results: at most `size` of them behind the first `skip`. -/
def batch (results : List Document) (skip size : Nat) : Batch :=
  let stop := min (skip + size) results.length
  { documents := (results.take stop).drop skip
    continuation := if stop < results.length then some (SkipToken.ofSkip stop) else none }

/-- How many results the page of a query skips. -/
def skip (page : PageState) : Except StoreError Nat :=
  match page.continuation with
  | none => .ok 0
  | some token =>
    match SkipToken.skip? token with
    | some skip => .ok skip
    | none => .error (.invalidContinuation "not a token of this store")

/-- Answers a query. A collection that does not exist has no documents. -/
def execute (store : MemoryStore) (name : String) (query : Query) : Except StoreError Batch := do
  let skip ← skip query.page
  match store.collection? name with
  | none => .ok {}
  | some collection =>
    .ok (batch (OrderKey.arrange query.order (collection.select query.tree)) skip
      (max query.page.size 1))

/-- Finds a document. -/
def pointRead (store : MemoryStore) (name id : String) (partition : Option PartitionBinding) :
    Except StoreError (Option Document) :=
  match store.collection? name with
  | none => .ok none
  | some collection => do .ok (collection.documents.lookup (← collection.key name id partition))

/-- Removes a document and says whether there was one. -/
def pointDelete (store : MemoryStore) (name id : String) (partition : Option PartitionBinding) :
    Except StoreError Bool × MemoryStore :=
  match store.collection? name with
  | none => (.ok false, store)
  | some collection =>
    match collection.key name id partition with
    | .error error => (.error error, store)
    | .ok key =>
      (.ok (collection.documents.lookup key).isSome,
        store.put name { collection with documents := Entries.erase key collection.documents })

/-- Counts the documents that a query selects, or all of them. -/
def count (store : MemoryStore) (name : String) (query : Option Query) : Nat :=
  match store.collection? name with
  | none => 0
  | some collection =>
    query.elim collection.documents.length fun query => (collection.select query.tree).length

/-- Adds a document, or replaces the one with its key. A collection that does not exist is created
first, partitioned by the field that the caller names, and stays if the document is then refused. -/
def upsert (store : MemoryStore) (name : String) (document : Document)
    (partition : Option PartitionBinding) : Except StoreError Unit × MemoryStore :=
  match (document.get? idField).bind Document.idText? with
  | none =>
    (.error (.badRequest ("document in '" ++ name ++ "' has no string or number 'id'")), store)
  | some id =>
    let collection := (store.collection? name).getD { partitionField := partition.map (·.field) }
    match collection.partitionOf id document partition with
    | .error error => (.error error, store.put name collection)
    | .ok text =>
      (.ok (), store.put name { collection with
        documents := Entries.insert ⟨text, id⟩ document collection.documents })

/-- Adds a document to the partition that it names itself. -/
def insert (store : MemoryStore) (name : String) (document : Document) :
    Except StoreError Unit × MemoryStore := store.upsert name document none

/-- How many documents there are in all. -/
def total (store : MemoryStore) : Nat :=
  store.collections.foldr (fun entry number => entry.2.documents.length + number) 0

end MemoryStore

/-- Answers calls from memory. Every batch but the last one of a walk has a document. -/
def memoryStore : DocumentStore MemoryStore where
  answer
    | .execute name query, store => (store.execute name query, store)
    | .pointRead name id partition, store => (store.pointRead name id partition, store)
    | .pointDelete name id partition, store => store.pointDelete name id partition
    | .count name query, store => (.ok (store.count name query), store)
    | .upsert name document partition, store => store.upsert name document partition
  walkBound store := store.total + 1

end DerivedQuery
