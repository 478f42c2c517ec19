import DerivedQuery.Json.Basic
import DerivedQuery.Time.Instant

/-!
# Order of values

Values of one scalar kind compare: booleans with `false` first, numbers by value, strings as instants if
both are written as instants and by code points otherwise. Arrays and objects do not compare.

For sorting, values of different kinds are ordered by kind, and a missing value comes before all others
(`Json.totalOrder`).
-/

namespace DerivedQuery

/-- Strings compare as instants if both are, and by code points otherwise. -/
def compareTexts (s t : String) : Ordering :=
  match Instant.ofChars? s.toList, Instant.ofChars? t.toList with
  | some a, some b => a.order b
  | _, _ => compare s t

namespace Json

/-- Order of two values of one scalar kind. -/
def compare? : Json → Json → Option Ordering
  | null, null => some .eq
  | bool a, bool b => some (compare a b)
  | number m, number n => some (m.order n)
  | string s, string t => some (compareTexts s t)
  | _, _ => none

/-- Position of a value's kind. -/
def kindRank : Json → Nat
  | null => 0
  | bool _ => 1
  | number _ => 2
  | string _ => 3
  | array _ => 4
  | object _ => 5

/-- Order of values for sorting. Values of one kind that do not compare count as equal. -/
def totalOrder : Option Json → Option Json → Ordering
  | none, none => .eq
  | none, some _ => .lt
  | some _, none => .gt
  | some a, some b => (compare a.kindRank b.kindRank).then ((a.compare? b).getD .eq)

end Json

end DerivedQuery
