/-!
# 64-bit binary floats

A float is a sign and a magnitude pattern: eleven bits of exponent above 52 bits of fraction, read as
one natural number. Patterns below `infinity` are the finite floats, and larger patterns are larger
values, so order and equality of floats are those of one integer (`Binary64.rank`).

Arithmetic is exact arithmetic on fractions followed by one rounding to the nearest float, ties going
to the even pattern (`Binary64.nearest`).
-/

namespace DerivedQuery

/-- A sign and a magnitude pattern. -/
structure Binary64 where
  negative : Bool
  pattern : Nat
  deriving DecidableEq, Repr

namespace Binary64

/-- The pattern above all finite ones. -/
def infinity : Nat := 0x7FF0000000000000

/-- How many patterns share an exponent: one for each fraction of 52 bits. -/
def binade : Nat := 0x10000000000000

/-- Has a value. -/
def isFinite (x : Binary64) : Bool := x.pattern < infinity

/-- The float zero with positive sign. -/
def zero : Binary64 := ⟨false, 0⟩

/-- The magnitude is `significand · 2 ^ (exponent - 1074)`. -/
def significand (x : Binary64) : Nat :=
  if x.pattern < binade then x.pattern else binade + x.pattern % binade

/-- The power of two of the last place, counted from the smallest one. -/
def exponent (x : Binary64) : Nat := x.pattern / binade - 1

/-- The place of a float in the order of all floats; both zeros have place zero. -/
def rank (x : Binary64) : Int := if x.negative then -(x.pattern : Int) else x.pattern

/-- Order of floats by value. -/
def order (x y : Binary64) : Ordering := compare x.rank y.rank

/-- The value without its sign as a fraction. -/
def fraction (x : Binary64) : Nat × Nat :=
  if 1074 ≤ x.exponent then (x.significand * Nat.pow 2 (x.exponent - 1074), 1)
  else (x.significand, Nat.pow 2 (1074 - x.exponent))

/-! ## Rounding -/

/-- The natural number nearest to `num / den`, a tie going to the even one. -/
def roundQuotient (num den : Nat) : Nat :=
  let quotient := num / den
  let twice := 2 * (num % den)
  if den < twice || (twice == den && quotient % 2 == 1) then quotient + 1 else quotient

/-- The power of two, counted from the smallest, of the last place of a float near `num / den`. It is
the number of doublings of the smallest place that leave the quotient at most 53 bits long. -/
def lastPlace (num den : Nat) : Nat :=
  let place := Nat.log2 num + 1022 - Nat.log2 den
  if num * Nat.pow 2 1074 < den * Nat.pow 2 (place + 52) then place - 1 else place

/-- The pattern of the float nearest to `num / den`, a tie going to the even pattern. What is too
large becomes `infinity`. -/
def nearest (num den : Nat) : Nat :=
  let place := lastPlace num den
  if num = 0 then 0
  else min infinity (place * binade + roundQuotient (num * Nat.pow 2 1074) (den * Nat.pow 2 place))

/-- The float nearest to an integer. -/
def ofInt (i : Int) : Binary64 := ⟨i < 0, nearest i.natAbs 1⟩

/-- The product of two magnitudes. -/
def mul (x y : Binary64) : Binary64 :=
  ⟨x.negative != y.negative,
    nearest (x.fraction.1 * y.fraction.1) (x.fraction.2 * y.fraction.2)⟩

/-- The quotient of two floats, the second of which is not zero. -/
def div (x y : Binary64) : Binary64 :=
  ⟨x.negative != y.negative,
    nearest (x.fraction.1 * y.fraction.2) (x.fraction.2 * y.fraction.1)⟩

end Binary64

end DerivedQuery
