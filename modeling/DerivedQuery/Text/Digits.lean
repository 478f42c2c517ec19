/-!
# Decimal digits

The number that a run of decimal digits stands for.
-/

namespace DerivedQuery.Text

/-- The number that a digit stands for. -/
def digitValue (c : Char) : Nat := c.toNat - '0'.toNat

/-- The number that digits stand for, the highest digit first. -/
def digitsValue (digits : List Char) : Nat :=
  digits.foldl (fun n c => n * 10 + digitValue c) 0

end DerivedQuery.Text
