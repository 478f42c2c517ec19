import DerivedQuery.Document.Lookup
import DerivedQuery.Predicate.Basic
import DerivedQuery.Predicate.Order
import DerivedQuery.Text.Case
import DerivedQuery.Text.Infix

/-!
# Evaluating predicates

Whether a document satisfies a predicate. Values are never converted: a string never equals a number.
A missing field satisfies only `isNull`, and `null` neither precedes nor follows anything.
-/

namespace DerivedQuery

namespace Predicate

/-- The text that is compared: the text itself, or its lower case if case is ignored. -/
def fold (ignoreCase : Bool) (text : String) : List Char :=
  if ignoreCase then Text.lowercase text.toList else text.toList

/-- Equality of a field's value and an argument. -/
def equals (ignoreCase : Bool) : Json → Json → Bool
  | .string a, .string b => fold ignoreCase a == fold ignoreCase b
  | a, b => a.same b

/-- A test of two texts; other values fail it. -/
def testTexts (ignoreCase : Bool) (test : List Char → List Char → Bool) : Json → Json → Bool
  | .string a, .string b => test (fold ignoreCase a) (fold ignoreCase b)
  | _, _ => false

/-- An array has an element, or a text has another one in it. -/
def contains (ignoreCase : Bool) (value argument : Json) : Bool :=
  match value with
  | .array elements => elements.any (equals ignoreCase · argument)
  | value => testTexts ignoreCase (fun a b => Text.hasInfix b a) value argument

/-- A value that can contain others. -/
def isContainer : Json → Bool
  | .string _ | .array _ => true
  | _ => false

/-- The argument is an array with the value in it. -/
def isAmong (ignoreCase : Bool) (value : Json) : Json → Bool
  | .array elements => elements.any (equals ignoreCase value)
  | _ => false

/-- The argument is an array. -/
def isArray : Json → Bool
  | .array _ => true
  | _ => false

/-- Value and bound are not null, compare, and their order is accepted. -/
def compares (accept : Ordering → Bool) (value bound : Json) : Bool :=
  !value.isNull && !bound.isNull && (value.compare? bound).any accept

/-- The comparison of a present value with its arguments, missing ones being `null`. -/
def test (operator : Operator) (ignoreCase : Bool) (value first second : Json) : Bool :=
  match operator with
  | .equal => equals ignoreCase value first
  | .notEqual => !equals ignoreCase value first
  | .containing => contains ignoreCase value first
  | .notContaining => isContainer value && !contains ignoreCase value first
  | .startsWith => testTexts ignoreCase (fun a b => b.isPrefixOf a) value first
  | .endsWith => testTexts ignoreCase (fun a b => b.isSuffixOf a) value first
  | .isIn => isAmong ignoreCase value first
  | .notIn => isArray first && !isAmong ignoreCase value first
  | .greaterThan | .after => compares (· == .gt) value first
  | .greaterThanEqual => compares (· != .lt) value first
  | .lessThan | .before => compares (· == .lt) value first
  | .lessThanEqual => compares (· != .gt) value first
  | .between => compares (· != .lt) value first && compares (· != .gt) value second
  | .isNull => value.isNull
  | .isNotNull => !value.isNull
  | .isTrue => value.same (.bool true)
  | .isFalse => value.same (.bool false)

/-- The document satisfies the predicate. -/
def holds (predicate : Predicate) (document : Document) : Bool :=
  match document.field? predicate.field with
  | none => predicate.operator == .isNull
  | some value =>
    test predicate.operator predicate.ignoreCase value (predicate.values[0]?.getD .null)
      (predicate.values[1]?.getD .null)

end Predicate

/-- The document satisfies all predicates, or one of them, as the connector says. -/
def PredicateTree.holds (tree : PredicateTree) (document : Document) : Bool :=
  if tree.predicates.isEmpty then true
  else match tree.connector with
    | .and => tree.predicates.all (·.holds document)
    | .or => tree.predicates.any (·.holds document)

end DerivedQuery
