/-!
# Requested sort orders

A sorting lists the properties by which a caller wants results ordered, the most important one first.
It names properties by dotted path and is not yet checked against an entity.
-/

namespace DerivedQuery

/-- Direction of an order. -/
inductive Direction where
  | asc
  | desc
  deriving DecidableEq, Repr

/-- The name of a direction. -/
def Direction.name : Direction → String
  | asc => "ASC"
  | desc => "DESC"

/-- One key of a sorting. -/
structure SortKey where
  /-- Dotted path of the property. -/
  property : String
  direction : Direction
  ignoreCase : Bool := false
  deriving DecidableEq, Repr

/-- Keys, the most important one first; without keys, no order is asked for. -/
abbrev Sorting := List SortKey

/-- Orders by several properties in one direction. -/
def Sorting.by (direction : Direction) (properties : List String) : Sorting :=
  properties.map fun property => { property, direction }

end DerivedQuery
