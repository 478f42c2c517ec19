import DerivedQuery.Entity.Description
import DerivedQuery.Entity.PropertyTable
import DerivedQuery.Error

/-!
# Entity metadata

A description with its names resolved: the identifier is a declared top-level property, and the
partition key, if there is one, is a declared property. Documents keep the identifier in the field
`id`, whatever the property is called, and every other property in the field of its dotted path.
-/

namespace DerivedQuery

/-- The document field that holds the identifier. -/
def idField : String := "id"

/-- A resolved description. -/
structure EntityMetadata where
  typeName : String
  collection : String
  idProperty : PropertyPath
  partitionKey : Option PropertyPath
  properties : PropertyTable
  deriving Repr, Inhabited

namespace EntityMetadata

/-- Resolves the names of a description. -/
def ofDescription (description : EntityDescription) : Except QueryError EntityMetadata := do
  let properties := PropertyTable.build description.properties
  let resolve := fun (dotted : String) => match properties.resolve? dotted with
    | some path => .ok path
    | none => .error (.unknownProperty description.name dotted)
  let idProperty ← resolve description.id
  if idProperty.isNested then
    .error (.unsupportedQuery (.nestedIdentifier idProperty.dotted))
  else
    let partitionKey ← match description.partitionKey with
      | none => .ok none
      | some key => (resolve key).map some
    .ok {
      typeName := description.name
      collection := description.collection.getD description.name
      idProperty, partitionKey, properties }

variable (m : EntityMetadata)

/-- The collection is partitioned. -/
def isPartitioned : Bool := m.partitionKey.isSome

/-- The declared property with a dotted path. -/
def resolve (dotted : String) : Except QueryError PropertyPath :=
  match m.properties.resolve? dotted with
  | some path => .ok path
  | none => .error (.unknownProperty m.typeName dotted)

/-- The path leads to the identifier. -/
def isId (path : PropertyPath) : Bool := path.segments == m.idProperty.segments

/-- The path leads to the partition key. -/
def isPartitionKey (path : PropertyPath) : Bool :=
  m.partitionKey.any fun key => key.segments == path.segments

/-- The document field of a property. -/
def documentField (path : PropertyPath) : String := if m.isId path then idField else path.dotted

end EntityMetadata

end DerivedQuery
