import DerivedQuery.Plan.Query
import DerivedQuery.Text.Case
import DerivedQuery.Text.Split

/-!
# Query text

The text of a query in the SQL dialect of document stores. Values never stand in the text: each one is
bound to a parameter, which is named after the property it is compared with and numbered in the order of
binding.
-/

namespace DerivedQuery

/-- A named value. -/
structure SqlParameter where
  name : String
  value : Json
  deriving Repr

/-- A text with its parameters. -/
structure SqlQuery where
  text : String
  parameters : List SqlParameter
  deriving Repr

namespace Sql

/-! ## Names -/

/-- A character of an identifier. -/
def isNameChar (c : Char) : Bool := c.isAlphanum || c == '_'

/-- A segment that needs no quotes. -/
def isIdentifier : List Char → Bool
  | [] => false
  | c :: rest => (c.isAlpha || c == '_') && rest.all isNameChar

/-- A character inside quotes. -/
def escapeChar (c : Char) : List Char := if c = '\\' ∨ c = '"' then ['\\', c] else [c]

/-- A segment behind the name of the root. -/
def segmentRef (segment : List Char) : List Char :=
  if isIdentifier segment then '.' :: segment
  else '[' :: '"' :: segment.flatMap escapeChar ++ ['"', ']']

/-- A document field. -/
def fieldRef (dotted : String) : String :=
  "r" ++ String.ofList ((Text.split '.' dotted.toList).flatMap segmentRef)

/-- The name of the parameter at a position, for a value compared with a property. -/
def parameterName (property : PropertyPath) (position : Nat) : String :=
  "@" ++ String.ofList (property.leaf.toList.filter isNameChar) ++ toString position

/-! ## Conditions -/

mutual

/-- The value with all strings in upper case, those in arrays included. -/
def upperStrings : Json → Json
  | .string s => .string (String.ofList (Text.uppercase s.toList))
  | .array elements => .array (upperElements elements)
  | value => value

/-- The elements with all strings in upper case. -/
def upperElements : List Json → List Json
  | [] => []
  | x :: rest => upperStrings x :: upperElements rest

end

/-- The values that a predicate binds to parameters. -/
def boundValues (predicate : Predicate) : List Json :=
  let first := predicate.values[0]?.getD .null
  match predicate.operator with
  | .isNull | .isNotNull | .isTrue | .isFalse => []
  | .between => [first, predicate.values[1]?.getD .null]
  | .isIn | .notIn => [if predicate.ignoreCase then upperStrings first else first]
  | _ => [first]

/-- The flag of a function that ignores case. -/
def ignoreCaseFlag (ignoreCase : Bool) : String := if ignoreCase then ", true" else ""

/-- A comparison of two texts, in upper case if case is ignored. -/
def comparison (ignoreCase : Bool) (field operator parameter : String) : String :=
  if ignoreCase then "UPPER(" ++ field ++ ") " ++ operator ++ " UPPER(" ++ parameter ++ ")"
  else field ++ " " ++ operator ++ " " ++ parameter

/-- A call of a function of two texts. -/
def textFunction (name : String) (ignoreCase : Bool) (field parameter : String) : String :=
  name ++ "(" ++ field ++ ", " ++ parameter ++ ignoreCaseFlag ignoreCase ++ ")"

/-- The test for an element of an array or a part of a text. -/
def containing (predicate : Predicate) (field parameter : String) : String :=
  if predicate.property.type.isArray then "ARRAY_CONTAINS(" ++ field ++ ", " ++ parameter ++ ")"
  else textFunction "CONTAINS" predicate.ignoreCase field parameter

/-- The test for membership in an array argument. -/
def membership (ignoreCase : Bool) (field parameter : String) : String :=
  if ignoreCase then "ARRAY_CONTAINS(" ++ parameter ++ ", UPPER(" ++ field ++ "))"
  else "ARRAY_CONTAINS(" ++ parameter ++ ", " ++ field ++ ")"

/-- The condition of a predicate, given the names of its parameters. -/
def condition (predicate : Predicate) (first second : String) : String :=
  let field := fieldRef predicate.field
  let ignoreCase := predicate.ignoreCase
  match predicate.operator with
  | .equal => comparison ignoreCase field "=" first
  | .notEqual => comparison ignoreCase field "!=" first
  | .containing => containing predicate field first
  | .notContaining => "NOT " ++ containing predicate field first
  | .startsWith => textFunction "STARTSWITH" ignoreCase field first
  | .endsWith => textFunction "ENDSWITH" ignoreCase field first
  | .isIn => membership ignoreCase field first
  | .notIn => "NOT " ++ membership ignoreCase field first
  | .greaterThan | .after => comparison false field ">" first
  | .greaterThanEqual => comparison false field ">=" first
  | .lessThan | .before => comparison false field "<" first
  | .lessThanEqual => comparison false field "<=" first
  | .between =>
    "(" ++ comparison false field ">=" first ++ " AND " ++ comparison false field "<=" second ++ ")"
  | .isNull => "(NOT IS_DEFINED(" ++ field ++ ") OR IS_NULL(" ++ field ++ "))"
  | .isNotNull => "(IS_DEFINED(" ++ field ++ ") AND NOT IS_NULL(" ++ field ++ "))"
  | .isTrue => comparison false field "=" "true"
  | .isFalse => comparison false field "=" "false"

/-- The conditions of predicates, the parameters of the first one starting at a position. -/
def conditions : (position : Nat) → List Predicate → List String
  | _, [] => []
  | position, predicate :: rest =>
    condition predicate (parameterName predicate.property position)
        (parameterName predicate.property (position + 1)) ::
      conditions (position + (boundValues predicate).length) rest

/-- The parameters of predicates, the first one at a position. -/
def parameters : (position : Nat) → List Predicate → List SqlParameter
  | _, [] => []
  | position, predicate :: rest =>
    (boundValues predicate).mapIdx (fun offset value =>
        { name := parameterName predicate.property (position + offset), value }) ++
      parameters (position + (boundValues predicate).length) rest

/-! ## Queries -/

/-- What is selected. -/
def selection : Action → String
  | .count => "SELECT VALUE COUNT(1) FROM ROOT r"
  | _ => "SELECT * FROM ROOT r"

/-- The condition of a predicate tree. -/
def filter (tree : PredicateTree) : String :=
  if tree.predicates.isEmpty then ""
  else
    " WHERE (" ++ (" " ++ tree.connector.name ++ " ").intercalate (conditions 0 tree.predicates) ++
      ")"

/-- The order of a query; a count has none. -/
def ordering (action : Action) (order : Option OrderKey) : String :=
  match action, order with
  | .count, _ | _, none => ""
  | _, some key => " ORDER BY " ++ fieldRef key.field ++ " " ++ key.direction.name

/-- The text of a query. -/
def render (query : Query) : SqlQuery :=
  { text := selection query.action ++ filter query.tree ++ ordering query.action query.order
    parameters := parameters 0 query.tree.predicates }

end Sql

end DerivedQuery
