import DerivedQuery.Entity.PropertyType
import DerivedQuery.Json.Record

/-!
# Entity descriptions

What an entity says about itself: its name, the collection that holds its documents, its identifier,
the property by which the collection is partitioned, and its properties. Descriptions are written as
JSON records.

A property type is written with its name as a tag: as an object with a member `type` beside the
members that the type needs, or as an array with the tag first. Inside another type the tag may also be
the position of the type in `PropertyType.tags`.
-/

namespace DerivedQuery

open Json (Form)

/-- What an entity says about itself. -/
structure EntityDescription where
  /-- Name of the entity's type. -/
  name : String
  /-- Collection that holds the documents; the type's name if absent. -/
  collection : Option String := none
  /-- Dotted path of the identifier. -/
  id : String := "id"
  /-- Dotted path of the property that partitions the collection. -/
  partitionKey : Option String := none
  /-- Top-level properties in order of their names. -/
  properties : List (String × PropertyType) := []
  deriving Repr, Inhabited

namespace PropertyType

/-- The names of the types in the order of their positions. -/
def tags : List String := ["string", "int", "float", "bool", "datetime", "object", "array"]

/-- The tag that a form stands for. -/
def tag? (inner : Bool) : Form → Option String
  | .string (some name) => some name
  | .number (some (.integer i)) =>
    if inner ∧ 0 ≤ i then tags[i.toNat]? else none
  | _ => none

/-- The type with a tag, given what is written for its fields and its elements. -/
def ofTag? (tag : String) (fields : Option (List (String × PropertyType)))
    (element : Option PropertyType) : Option PropertyType :=
  if tag = "string" then some string
  else if tag = "int" then some int
  else if tag = "float" then some float
  else if tag = "bool" then some bool
  else if tag = "datetime" then some datetime
  else if tag = "object" then fields.map object
  else if tag = "array" then element.map array
  else none

/-- The one value in a list, if it holds one value. -/
def single? {α : Type} : List (Option α) → Option α
  | [value] => value
  | _ => none

mutual

/-- The type that a form stands for. -/
def ofForm? (inner : Bool) : Form → Option PropertyType
  | .object members => do
    let tag ← match Form.membersNamed "type" members with
      | [form] => tag? inner form
      | _ => none
    ofTag? tag (single? (fieldMembers members)) (single? (elementMembers members))
  | .array [tag] => do
    let tag ← tag? inner tag
    if tag = "object" ∨ tag = "array" then none else ofTag? tag none none
  | .array [tag, argument] => do
    let tag ← tag? inner tag
    if tag = "object" then (fieldTypes? argument).map object
    else if tag = "array" then (ofForm? true argument).map array
    else none
  | _ => none

/-- The types of the fields of an object type. -/
def fieldTypes? : Form → Option (List (String × PropertyType))
  | .object members => (memberTypes? members).map Entries.ofList
  | _ => none

/-- The names and types of members. -/
def memberTypes? : List (Option String × Form) → Option (List (String × PropertyType))
  | [] => some []
  | (name, form) :: rest => do
    some ((← name, ← ofForm? true form) :: (← memberTypes? rest))

/-- What the members named `fields` stand for. -/
def fieldMembers : List (Option String × Form) → List (Option (List (String × PropertyType)))
  | [] => []
  | (name, form) :: rest =>
    if name = some "fields" then fieldTypes? form :: fieldMembers rest else fieldMembers rest

/-- What the members named `element_type` stand for. -/
def elementMembers : List (Option String × Form) → List (Option PropertyType)
  | [] => []
  | (name, form) :: rest =>
    if name = some "element_type" then ofForm? true form :: elementMembers rest
    else elementMembers rest

end

mutual

/-- The written form of a type. -/
def toJson : PropertyType → Json
  | object fields => .ofMembers [("type", .string "object"), ("fields", .object (fieldsJson fields))]
  | array element => .ofMembers [("type", .string "array"), ("element_type", element.toJson)]
  | type => .ofMembers [("type", .string type.name)]

/-- The written forms of fields. -/
def fieldsJson : List (String × PropertyType) → List (String × Json)
  | [] => []
  | (name, type) :: rest => (name, type.toJson) :: fieldsJson rest

end

end PropertyType

namespace EntityDescription

/-- The description that a form stands for. Its containers may nest `levels` deep. -/
def ofForm? (levels : Nat) (form : Form) : Option EntityDescription := do
  match ← form.record? ["name", "collection", "id", "partition_key", "properties"] with
  | [name, collection, id, partitionKey, properties] =>
    let type? := fun (form : Form) => do
      let _ ← form.value? (levels - 2)
      PropertyType.ofForm? false form
    some {
      name := ← (← name).string?
      collection := ← collection.elim (some none) (·.nullableString?)
      id := ← id.elim (some "id") (·.string?)
      partitionKey := ← partitionKey.elim (some none) (·.nullableString?)
      properties := ← properties.elim (some []) (·.map? type?) }
  | _ => none

end EntityDescription

end DerivedQuery
