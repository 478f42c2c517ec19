import DerivedQuery.Page.Basic
import DerivedQuery.Plan.Capability
import DerivedQuery.Predicate.Basic

/-!
# Queries

A query is everything that a store has to know about one call. It is assembled by handing the arguments
of the call to the criteria of its operation, from left to right.
-/

namespace DerivedQuery

/-- A call in the form in which stores are asked. -/
structure Query where
  collection : String
  /-- Type that the documents stand for. -/
  projection : String
  action : Action
  tree : PredicateTree
  order : Option OrderKey
  page : PageState
  deriving Repr

namespace Query

/-- The same query for another page. -/
def withPage (query : Query) (page : PageState) : Query := { query with page }

/-- A criterion with its arguments. -/
def bindCriterion (m : EntityMetadata) (criterion : Criterion) (values : List Json) :
    Except QueryError Predicate :=
  let isArray := fun (value : Json) => match value with
    | .array _ => true
    | _ => false
  if criterion.operator.takesArray && !values.all isArray then
    .error (.invalidArgument criterion.property.dotted (.notArray criterion.operator))
  else .ok {
    property := criterion.property
    field := m.documentField criterion.property
    operator := criterion.operator
    ignoreCase := criterion.ignoreCase
    values }

/-- Criteria with their arguments: each takes as many as its operator needs, in order. -/
def bind (m : EntityMetadata) : List Criterion → List Json → Except QueryError (List Predicate)
  | [], _ => .ok []
  | criterion :: rest, arguments => do
    let predicate ← bindCriterion m criterion (arguments.take criterion.operator.arity)
    let predicates ← bind m rest (arguments.drop criterion.operator.arity)
    .ok (predicate :: predicates)

/-- The query of an operation with its arguments. -/
def assemble (m : EntityMetadata) (operation : Operation) (arguments : List Json)
    (order : Option OrderKey) (page : PageState) : Except QueryError Query := do
  if operation.arity ≠ arguments.length then
    .error (.argumentCount operation.method operation.arity arguments.length)
  else
    let predicates ← bind m operation.criteria arguments
    .ok {
      collection := m.collection
      projection := m.typeName
      action := operation.action
      tree := ⟨operation.connector, predicates⟩
      order, page }

end Query

end DerivedQuery
