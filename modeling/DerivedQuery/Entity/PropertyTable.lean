import DerivedQuery.Collection.Entries
import DerivedQuery.Entity.PropertyType

/-!
# Property tables

All properties of an entity, nested ones included, under their dotted paths. A property of object type
is in the table beside its fields; array types are leaves.

Names may themselves contain dots, so two declarations can share a dotted path. Then the later one
counts, where the fields of an object come before the object itself.
-/

namespace DerivedQuery

/-- Declared properties in order of their dotted paths. -/
abbrev PropertyTable := Entries String PropertyPath

namespace PropertyTable

mutual

/-- Adds a property below `parents`, after the fields of its type. -/
def add (parents : List String) (table : PropertyTable) (name : String) :
    PropertyType → PropertyTable
  | .object fields =>
    let path : PropertyPath := ⟨parents ++ [name], .object fields⟩
    (addAll (parents ++ [name]) table fields).insert path.dotted path
  | type =>
    let path : PropertyPath := ⟨parents ++ [name], type⟩
    table.insert path.dotted path

/-- Adds several properties below `parents`. -/
def addAll (parents : List String) (table : PropertyTable) :
    List (String × PropertyType) → PropertyTable
  | [] => table
  | (name, type) :: rest => addAll parents (add parents table name type) rest

end

/-- The table of top-level declarations. -/
def build (properties : List (String × PropertyType)) : PropertyTable := addAll [] [] properties

/-- The property with a dotted path. -/
def resolve? (table : PropertyTable) (dotted : String) : Option PropertyPath := table.lookup dotted

end PropertyTable

end DerivedQuery
