import DerivedQuery.Number.Shortest

/-!
# Writing decimals

How a decimal is laid out as text: positionally, with the point between its digits, or in scientific
form, with one digit before the point and a power of ten behind. A `Layout` says where one form gives
way to the other.
-/

namespace DerivedQuery

/-- The powers of ten of the leading digit that are written positionally. -/
structure Layout where
  lowest : Int
  highest : Int

namespace Decimal

/-- The digits from the left, without zeros at the end. -/
def leadingDigits (d : Decimal) : List Char :=
  ((Nat.toDigits 10 d.digits).reverse.dropWhile (· == '0')).reverse

/-- The power of ten of the leading digit. -/
def magnitude (d : Decimal) : Int := d.exponent + ((Nat.toDigits 10 d.digits).length - 1 : Nat)

/-- Positional form. There is at least one digit on each side of the point. -/
def positional (digits : List Char) (magnitude : Int) : List Char :=
  if magnitude < 0 then
    '0' :: '.' :: (List.replicate (-magnitude - 1).toNat '0' ++ digits)
  else
    let width := magnitude.toNat + 1
    let whole := digits.take width ++ List.replicate (width - digits.length) '0'
    let fraction := digits.drop width
    whole ++ '.' :: (if fraction.isEmpty then ['0'] else fraction)

/-- Scientific form. The point is left out after a single digit; the power of ten has a sign. -/
def scientific (digits : List Char) (magnitude : Int) : List Char :=
  let fraction := digits.drop 1
  digits.take 1 ++ (if fraction.isEmpty then [] else '.' :: fraction) ++
    'e' :: (if magnitude < 0 then '-' else '+') :: Nat.toDigits 10 magnitude.natAbs

/-- The text of a decimal. -/
def text (layout : Layout) (d : Decimal) : List Char :=
  if d.digits = 0 then ['0', '.', '0']
  else if layout.lowest ≤ d.magnitude ∧ d.magnitude ≤ layout.highest then
    positional d.leadingDigits d.magnitude
  else scientific d.leadingDigits d.magnitude

end Decimal

/-- The shortest text of a float, with a minus sign for negative ones, negative zero included. -/
def Binary64.text (layout : Layout) (x : Binary64) : List Char :=
  (if x.negative then ['-'] else []) ++ x.shortest.text layout

end DerivedQuery
