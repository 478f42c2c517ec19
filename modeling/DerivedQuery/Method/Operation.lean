import DerivedQuery.Entity.PropertyType
import DerivedQuery.Method.Operator
import DerivedQuery.Sorting

/-!
# Operations

What a method name stands for: an action, the criteria that select documents, and the order of the
result. The criteria are not yet bound to arguments.
-/

namespace DerivedQuery

/-- A property and how it is compared. -/
structure Criterion where
  property : PropertyPath
  operator : Operator
  ignoreCase : Bool
  deriving Repr

/-- What stands between the verb and the criteria. -/
structure Subject where
  distinct : Bool := false
  /-- How many results are asked for. -/
  limit : Option Nat := none
  deriving DecidableEq, Repr

/-- A parsed method name. -/
structure Operation where
  method : String
  action : Action
  subject : Subject
  connector : Connector
  criteria : List Criterion
  order : Sorting
  deriving Repr

namespace Operation

/-- How many arguments the criteria take. -/
def arity (operation : Operation) : Nat :=
  operation.criteria.foldr (fun criterion number => criterion.operator.arity + number) 0

/-- The name asks for a limited number of results. -/
def isLimiting (operation : Operation) : Bool := operation.subject.limit.isSome

end Operation

end DerivedQuery
