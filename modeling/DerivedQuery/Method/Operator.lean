/-!
# Actions, connectors and operators

The closed vocabularies of a method name: what it does, how its criteria are joined, and how a
criterion compares.
-/

namespace DerivedQuery

/-- What an operation does, chosen by its verb. -/
inductive Action where
  | find
  | exists
  | count
  | delete
  deriving DecidableEq, Repr

/-- The name of an action. -/
def Action.name : Action → String
  | find => "find"
  | .exists => "exists"
  | count => "count"
  | delete => "delete"

/-- How the criteria of an operation are joined. -/
inductive Connector where
  | and
  | or
  deriving DecidableEq, Repr

/-- The name of a connector. -/
def Connector.name : Connector → String
  | and => "AND"
  | or => "OR"

/-- How a criterion compares a property with its arguments. -/
inductive Operator where
  | equal
  | notEqual
  | containing
  | notContaining
  | startsWith
  | endsWith
  | isIn
  | notIn
  | greaterThan
  | greaterThanEqual
  | lessThan
  | lessThanEqual
  | before
  | after
  | between
  | isNull
  | isNotNull
  | isTrue
  | isFalse
  deriving DecidableEq, Repr

namespace Operator

/-- All operators. -/
def all : List Operator :=
  [equal, notEqual, containing, notContaining, startsWith, endsWith, isIn, notIn, greaterThan,
    greaterThanEqual, lessThan, lessThanEqual, before, after, between, isNull, isNotNull, isTrue,
    isFalse]

/-- How many arguments the operator takes. -/
def arity : Operator → Nat
  | isNull | isNotNull | isTrue | isFalse => 0
  | between => 2
  | _ => 1

/-- The operator takes an array as its argument. -/
def takesArray : Operator → Bool
  | isIn | notIn => true
  | _ => false

/-- The operator can ignore case. -/
def supportsIgnoreCase : Operator → Bool
  | equal | notEqual | containing | notContaining | startsWith | endsWith | isIn | notIn => true
  | _ => false

/-- The name of an operator. -/
def name : Operator → String
  | equal => "EQUAL"
  | notEqual => "NOT"
  | containing => "CONTAINING"
  | notContaining => "NOT_CONTAINING"
  | startsWith => "STARTS_WITH"
  | endsWith => "ENDS_WITH"
  | isIn => "IN"
  | notIn => "NOT_IN"
  | greaterThan => "GREATER_THAN"
  | greaterThanEqual => "GREATER_THAN_EQUAL"
  | lessThan => "LESS_THAN"
  | lessThanEqual => "LESS_THAN_EQUAL"
  | before => "BEFORE"
  | after => "AFTER"
  | between => "BETWEEN"
  | isNull => "IS_NULL"
  | isNotNull => "IS_NOT_NULL"
  | isTrue => "TRUE"
  | isFalse => "FALSE"

/-- The operator with a name. -/
def ofName? (name : String) : Option Operator := all.find? (·.name == name)

/-- The list of all operators is complete. -/
theorem mem_all (operator : Operator) : operator ∈ all := by cases operator <;> decide

/-- Every operator is found by its name. -/
theorem ofName?_name (operator : Operator) : ofName? operator.name = some operator := by
  cases operator <;> decide

end Operator

end DerivedQuery
