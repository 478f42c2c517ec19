import DerivedQuery.Document.Lookup
import DerivedQuery.Entity.Metadata
import DerivedQuery.Json.Printer

/-!
# Entities as documents

An entity's JSON form becomes a document by moving its identifier to the field `id`, and a document
becomes an entity by moving it back. Fields that start with an underscore belong to the store: those
that the entity does not declare are left out on the way back.
-/

namespace DerivedQuery

namespace Document

/-- Moves a member to another name, replacing what stood there. -/
def rename (source target : String) (members : List (String × Json)) : List (String × Json) :=
  if source = target then members
  else match members.lookup source with
    | some value => Entries.insert target value (Entries.erase source members)
    | none => members

/-- The document of an entity. -/
def ofEntity (m : EntityMetadata) : Json → Except QueryError Document
  | .object members => .ok (.object (rename m.idProperty.leaf idField members))
  | value => .error (.conversion (.entityNotObject m.typeName value.kind))

/-- A field that belongs to the store and is not declared. -/
def isSystemField (m : EntityMetadata) (name : String) : Bool :=
  name.toList.head? == some '_' && (m.properties.resolve? name).isNone

/-- The entity of a document. -/
def toEntity (m : EntityMetadata) : Document → Except QueryError Json
  | .object members =>
    .ok (.object (rename idField m.idProperty.leaf (members.filter (!isSystemField m ·.1))))
  | value => .error (.conversion (.documentNotObject value.kind))

/-- The text of an identifier, which is a string or a number. -/
def idText? : Json → Option String
  | .string id => some id
  | .number n => some (String.ofList n.text)
  | _ => none

/-- The identifier of a document. -/
def id (m : EntityMetadata) (document : Document) : Except QueryError String :=
  match document.get? idField with
  | none => .error (.conversion (.idMissing m.typeName))
  | some value =>
    match idText? value with
    | some id => .ok id
    | none => .error (.conversion (.idKind value.kind))

/-- The document has no identifier, or `null` in its place. -/
def lacksId (members : List (String × Json)) : Bool := (members.lookup idField).all Json.isNull

/-- Gives a document that lacks an identifier the fresh one, and says whether it was used. Only a
textual identifier can be made up. -/
def assignId (m : EntityMetadata) (fresh : String) : Document → Except QueryError (Document × Bool)
  | .object members =>
    if !lacksId members then .ok (.object members, false)
    else if m.idProperty.type.isTextual then
      .ok (.object (Entries.insert idField (.string fresh) members), true)
    else
      .error (.conversion
        (.idNotGenerated m.typeName m.idProperty.dotted m.idProperty.type.name))
  | value => .error (.conversion (.documentNotObject value.kind))

end Document

end DerivedQuery
