import DerivedQuery.Collection.Entries
import DerivedQuery.Json.Number

/-!
# JSON values

The members of an object are kept in ascending order of their names, one for each name, so two objects
are equal exactly when they have the same members. `Json.Ordered` says that all objects inside a value
are kept that way.
-/

namespace DerivedQuery

/-- A JSON value. -/
inductive Json where
  | null
  | bool (value : Bool)
  | number (value : Json.Number)
  | string (value : String)
  | array (elements : List Json)
  | object (members : List (String × Json))
  deriving Repr, Inhabited

namespace Json

/-- A whole number. -/
def int (i : Int) : Json := number (.integer i)

/-- A natural number. -/
def nat (n : Nat) : Json := number (.integer n)

/-- The object with the given members, of which the last one under each name counts. -/
def ofMembers (members : List (String × Json)) : Json := object (Entries.ofList members)

/-- The name of the kind of a value. -/
def kind : Json → String
  | null => "null"
  | bool _ => "bool"
  | number _ => "number"
  | string _ => "string"
  | array _ => "array"
  | object _ => "object"

/-- The member of an object under a name. -/
def get? (name : String) : Json → Option Json
  | object members => members.lookup name
  | _ => none

/-- The value is `null`. -/
def isNull : Json → Bool
  | null => true
  | _ => false

mutual

/-- Equality of values: numbers by `Number.same`, all else by its parts. -/
def same : Json → Json → Bool
  | null, null => true
  | bool a, bool b => a == b
  | number m, number n => m.same n
  | string s, string t => s == t
  | array xs, array ys => sameElements xs ys
  | object xs, object ys => sameMembers xs ys
  | _, _ => false

/-- Equality of elements, one by one. -/
def sameElements : List Json → List Json → Bool
  | [], [] => true
  | x :: xs, y :: ys => x.same y && sameElements xs ys
  | _, _ => false

/-- Equality of members, name and value. -/
def sameMembers : List (String × Json) → List (String × Json) → Bool
  | [], [] => true
  | (k, x) :: xs, (l, y) :: ys => k == l && x.same y && sameMembers xs ys
  | _, _ => false

end

mutual

/-- All objects inside the value keep their members in ascending order of names. -/
def Ordered : Json → Prop
  | array elements => OrderedElements elements
  | object members => Entries.Ascending members ∧ OrderedMembers members
  | _ => True

/-- All elements are ordered. -/
def OrderedElements : List Json → Prop
  | [] => True
  | x :: rest => x.Ordered ∧ OrderedElements rest

/-- The values of all members are ordered. -/
def OrderedMembers : List (String × Json) → Prop
  | [] => True
  | (_, x) :: rest => x.Ordered ∧ OrderedMembers rest

end

end Json

end DerivedQuery
