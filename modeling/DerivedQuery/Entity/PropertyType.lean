/-!
# Property types and paths

The declared type of an entity's property, and the path from the entity to a property, which may lead
through nested objects.
-/

namespace DerivedQuery

/-- The declared type of a property. -/
inductive PropertyType where
  | string
  | int
  | float
  | bool
  /-- A point in time, stored as its RFC 3339 text. -/
  | datetime
  | object (fields : List (String × PropertyType))
  | array (element : PropertyType)
  deriving Repr, Inhabited

namespace PropertyType

/-- The name of a type. -/
def name : PropertyType → String
  | string => "string"
  | int => "int"
  | float => "float"
  | bool => "bool"
  | datetime => "datetime"
  | object _ => "object"
  | array _ => "array"

/-- A nested object. -/
def isObject : PropertyType → Bool
  | object _ => true
  | _ => false

/-- An array. -/
def isArray : PropertyType → Bool
  | array _ => true
  | _ => false

/-- Values of the type compare as text. -/
def isTextual : PropertyType → Bool
  | string => true
  | _ => false

/-- Values of the type can order a result. -/
def isOrderable : PropertyType → Bool
  | object _ | array _ => false
  | _ => true

end PropertyType

/-- A declared property: the names that lead to it and its type. -/
structure PropertyPath where
  segments : List String
  type : PropertyType
  deriving Repr, Inhabited

namespace PropertyPath

/-- The last name. -/
def leaf (path : PropertyPath) : String := path.segments.getLast?.getD ""

/-- The property lies inside a nested object. -/
def isNested (path : PropertyPath) : Bool := 1 < path.segments.length

/-- The names joined by dots. -/
def dotted (path : PropertyPath) : String := ".".intercalate path.segments

end PropertyPath

end DerivedQuery
