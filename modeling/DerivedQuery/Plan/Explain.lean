import DerivedQuery.Json.Printer
import DerivedQuery.Plan.Partition
import DerivedQuery.Plan.Sql

/-!
# Explaining calls

What a call would ask the store for, or why it is rejected.
-/

namespace DerivedQuery

/-- What a call would do. -/
inductive ExplainPlan where
  /-- The query, and the partition it is about. -/
  | accepted (query : Query) (partition : Option PartitionBinding)
  | rejected (error : QueryError)
  deriving Repr

namespace PartitionBinding

/-- The JSON form of a binding. -/
def toJson (binding : PartitionBinding) : Json :=
  .ofMembers [("property", .string binding.property), ("field", .string binding.field),
    ("value", binding.value)]

end PartitionBinding

namespace SqlQuery

/-- The JSON form of a query text. -/
def toJson (sql : SqlQuery) : Json :=
  .ofMembers [
    ("text", .string sql.text),
    ("parameters", .array (sql.parameters.map fun parameter =>
      .ofMembers [("name", .string parameter.name), ("value", parameter.value)]))]

end SqlQuery

namespace ExplainPlan

/-- The call is accepted. -/
def isAccepted : ExplainPlan → Bool
  | accepted .. => true
  | rejected _ => false

/-- The JSON form of a plan, which has all members in either case. -/
def toJson : ExplainPlan → Json
  | accepted query partition => .ofMembers [
      ("accepted", .bool true), ("collection", .string query.collection),
      ("action", .string query.action.name), ("query", (Sql.render query).toJson),
      ("partition_key", partition.elim .null PartitionBinding.toJson),
      ("page_size", .nat query.page.size),
      ("continuation", query.page.continuation.elim .null (.string ·.toBase64)),
      ("rejection_code", .null), ("rejection_reason", .null)]
  | rejected error => .ofMembers [
      ("accepted", .bool false), ("collection", .null), ("action", .null), ("query", .null),
      ("partition_key", .null), ("page_size", .null), ("continuation", .null),
      ("rejection_code", .string error.code), ("rejection_reason", .string error.message)]

/-- The lines about the parameters of a query text. -/
def parameterLines (parameters : List SqlParameter) : List String :=
  if parameters.isEmpty then []
  else "Parameters:" :: parameters.map fun parameter =>
    "  - " ++ parameter.name ++ " = " ++ parameter.value.compact

/-- The lines of a plan's text. -/
def lines : ExplainPlan → List String
  | accepted query partition =>
    let sql := Sql.render query
    ["=== EXPLAIN PLAN ===", "Status: ACCEPTED", "Collection: " ++ query.collection,
      "Action: " ++ query.action.name, "Query: " ++ sql.text] ++
    parameterLines sql.parameters ++
    ["Partition Key: " ++ match partition with
      | some binding => binding.property ++ " = " ++ binding.value.compact
      | none => "(cross-partition)"] ++
    ["Page Size: " ++ toString query.page.size] ++
    (query.page.continuation.map fun token => "Continuation: " ++ token.toBase64).toList
  | rejected error =>
    ["=== EXPLAIN PLAN ===", "Status: REJECTED", "Error Code: " ++ error.code,
      "Reason: " ++ error.message]

/-- The text of a plan. -/
def text (plan : ExplainPlan) : String := String.join (plan.lines.map (· ++ "\n"))

end ExplainPlan

end DerivedQuery
