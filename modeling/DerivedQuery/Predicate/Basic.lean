import DerivedQuery.Entity.PropertyType
import DerivedQuery.Json.Basic
import DerivedQuery.Method.Operator

/-!
# Predicates

A criterion bound to its arguments, and a list of them joined by a connector. A predicate names the
document field that its property is kept in.
-/

namespace DerivedQuery

/-- A comparison of a document field with arguments. -/
structure Predicate where
  property : PropertyPath
  /-- Dotted path of the document field. -/
  field : String
  operator : Operator
  ignoreCase : Bool
  /-- As many as the operator takes, if the predicate comes from a call. -/
  values : List Json
  deriving Repr

/-- The value, if there is exactly one. -/
def Predicate.literal? (predicate : Predicate) : Option Json :=
  match predicate.values with
  | [value] => some value
  | _ => none

/-- Predicates and how they are joined. Without predicates every document is selected. -/
structure PredicateTree where
  connector : Connector
  predicates : List Predicate
  deriving Repr

end DerivedQuery
