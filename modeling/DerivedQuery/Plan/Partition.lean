import DerivedQuery.Document.Lookup
import DerivedQuery.Entity.Metadata
import DerivedQuery.Predicate.Basic

/-!
# Partitions

A partitioned collection keeps its documents apart by the value of one field, and a document is only
found within its partition. The partition of a query follows from its predicates if they pin the field
to one value: they are joined by `and`, and every predicate on the field asks for equality, case
included, with one and the same value, which is not null.
-/

namespace DerivedQuery

/-- The partition that an operation is about. -/
structure PartitionBinding where
  /-- Dotted path of the property. -/
  property : String
  /-- Dotted path of the document field. -/
  field : String
  value : Json
  deriving Repr

namespace Partition

/-- The value that a predicate pins its field to. -/
def pinned? (predicate : Predicate) : Option Json :=
  if predicate.operator == .equal && !predicate.ignoreCase then
    predicate.literal?.filter (!·.isNull)
  else none

/-- The first of some values, if there is one and all others are equal to it. -/
def agreed? : List Json → Option Json
  | [] => none
  | value :: rest => if rest.all (value.same ·) then some value else none

variable (m : EntityMetadata)

/-- The partition that predicates pin. -/
def resolve? (tree : PredicateTree) : Option PartitionBinding := do
  let key ← m.partitionKey
  if tree.connector ≠ .and then none
  else
    let field := m.documentField key
    let values ← (tree.predicates.filter (·.field == field)).mapM pinned?
    some { property := key.dotted, field, value := ← agreed? values }

/-- The error of an operation that needs a partition. -/
def required : QueryError := .partitionKeyRequired m.collection

/-- The partition that predicates pin, which they have to if the collection is partitioned. -/
def require (tree : PredicateTree) : Except QueryError (Option PartitionBinding) :=
  if !m.isPartitioned then .ok none
  else match resolve? m tree with
    | some binding => .ok (some binding)
    | none => .error (required m)

/-- The partition of a document, if the collection is partitioned. -/
def ofDocument (document : Document) : Except QueryError (Option PartitionBinding) :=
  match m.partitionKey with
  | none => .ok none
  | some key =>
    let field := m.documentField key
    match (document.field? field).filter (!·.isNull) with
    | some value => .ok (some { property := key.dotted, field, value })
    | none => .error (required m)

end Partition

end DerivedQuery
