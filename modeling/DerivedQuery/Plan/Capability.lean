import DerivedQuery.Entity.Metadata
import DerivedQuery.Method.Operation

/-!
# What stores can do

A store cannot limit results, ignores case only in comparisons of texts, and orders by at most one
property, which is neither the identifier nor an object or an array. `Capability.validate` checks an
operation and a sort order against this and resolves the order; of several violations the first one in
the order just given is reported.
-/

namespace DerivedQuery

/-- A property that orders a result. -/
structure OrderKey where
  property : PropertyPath
  /-- Dotted path of the document field. -/
  field : String
  direction : Direction
  deriving Repr

namespace Capability

variable (m : EntityMetadata)

/-- The operation asks for all results. -/
def checkLimit (operation : Operation) : Except QueryError Unit :=
  match operation.subject.limit with
  | some limit => .error (.unsupportedQuery (.limited operation.method limit))
  | none => .ok ()

/-- The criterion is about a declared property, and case can be ignored if it is to be. -/
def checkCriterion (criterion : Criterion) : Except QueryError Unit :=
  let dotted := criterion.property.dotted
  let type := criterion.property.type
  if (m.properties.resolve? dotted).isNone then .error (.unknownProperty m.typeName dotted)
  else if !criterion.ignoreCase then .ok ()
  else if !type.isTextual then .error (.unsupportedQuery (.ignoreCaseOnType type.name dotted))
  else if !criterion.operator.supportsIgnoreCase then
    .error (.unsupportedQuery (.ignoreCaseOnOperator criterion.operator dotted))
  else .ok ()

/-- The key that a requested key stands for. -/
def resolveKey (key : SortKey) : Except QueryError OrderKey :=
  if key.ignoreCase then .error (.unsupportedSort (.ignoreCase key.property))
  else do
    let property ← m.resolve key.property
    if m.isId property then .error (.unsupportedSort (.identifier key.property))
    else if !property.type.isOrderable then
      .error (.unsupportedSort (.unorderable property.type.name key.property))
    else .ok { property, field := m.documentField property, direction := key.direction }

/-- The order that a sorting stands for. -/
def resolveSort : Sorting → Except QueryError (Option OrderKey)
  | [] => .ok none
  | [key] => (resolveKey m key).map some
  | keys => .error (.unsupportedSort (.manyKeys keys.length))

/-- Checks an operation and resolves a sort order. -/
def validate (operation : Operation) (sort : Sorting) : Except QueryError (Option OrderKey) := do
  checkLimit operation
  operation.criteria.forM (checkCriterion m)
  resolveSort m sort

end Capability

end DerivedQuery
