/-!
# Integers of fixed width

The range of signed integers of 64 bits. Unsigned ranges have names of their own, such as `UInt64.size`.
-/

namespace DerivedQuery

/-- Signed 64-bit integers reach from `-int64Half` to `int64Half - 1`. -/
def int64Half : Nat := 0x8000000000000000

/-- A signed integer of 64 bits. -/
def fitsInt64 (i : Int) : Bool := -(int64Half : Int) ≤ i && i < int64Half

end DerivedQuery
