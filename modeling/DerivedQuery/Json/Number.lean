import DerivedQuery.Number.Layout
import DerivedQuery.Number.Width

/-!
# JSON numbers

A number is an integer or a float, and the two never equal each other, but they are ordered together.
Integers come from literals without point and exponent between `-2^63` and `2^64 - 1`.
-/

namespace DerivedQuery.Json

/-- A JSON number. -/
inductive Number where
  | integer (value : Int)
  | float (value : Binary64)
  deriving DecidableEq, Repr

namespace Number

/-- Equality by value among numbers of one kind: the two zeros of the floats are equal, and an integer
differs from every float. -/
def same : Number → Number → Bool
  | integer a, integer b => a == b
  | float x, float y => x.rank == y.rank
  | _, _ => false

/-- The number as a signed 64-bit integer. -/
def toInt64? : Number → Option Int
  | integer a => if fitsInt64 a then some a else none
  | float _ => none

/-- The number as a float. -/
def toFloat : Number → Binary64
  | integer a => .ofInt a
  | float x => x

/-- Order of numbers: exact for two signed 64-bit integers, and by the nearest floats otherwise. -/
def order (m n : Number) : Ordering :=
  match m.toInt64?, n.toInt64? with
  | some a, some b => compare a b
  | _, _ => m.toFloat.order n.toFloat

/-- Floats are written positionally while the power of ten of their leading digit is from -5 to 15. -/
def layout : Layout := ⟨-5, 15⟩

/-- The text of a number. -/
def text : Number → List Char
  | integer a => (toString a).toList
  | float x => x.text layout

end Number

end DerivedQuery.Json
