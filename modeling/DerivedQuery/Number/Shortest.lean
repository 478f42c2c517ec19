import DerivedQuery.Number.Binary64

/-!
# Shortest decimals

The shortest decimal that reads back as a given float. A decimal reads back as the float when it lies
between the midpoints to the neighbouring floats, the midpoints included if the float's pattern is
even. The search goes through the grids of multiples of powers of ten, the coarsest first, and on each
tests the two multiples next to the float: the first grid with a hit gives the fewest digits, and of
two hits the nearer one is taken, in a tie the even one.

All numbers are scaled to naturals, so nothing is rounded.
-/

namespace DerivedQuery

/-- The number `digits · 10 ^ exponent`. -/
structure Decimal where
  digits : Nat
  exponent : Int
  deriving DecidableEq, Repr

namespace Binary64

/-- A float against the grid of multiples of one power of ten. All four numbers are in one common
unit: the step of the grid, the float, and the two ends of the interval that reads back as it. -/
structure OnGrid where
  step : Nat
  value : Nat
  low : Nat
  high : Nat
  /-- The ends belong to the interval. -/
  closed : Bool

/-- A float against the multiples of `10 ^ k`. A quarter of its last place measures the interval: it
reaches two quarters to either side, but one quarter down where the places below are half as wide. -/
def onGrid (x : Binary64) (k : Int) : OnGrid :=
  let quarter := Nat.pow 2 x.exponent * Nat.pow 10 (-k).toNat
  let down := if x.significand = binade ∧ 0 < x.exponent then 1 else 2
  { step := Nat.pow 10 k.toNat * Nat.pow 2 1076
    value := 4 * x.significand * quarter
    low := (4 * x.significand - down) * quarter
    high := (4 * x.significand + 2) * quarter
    closed := x.pattern % 2 == 0 }

/-- A multiple of the step that reads back as the float. -/
def OnGrid.hits (g : OnGrid) (multiple : Nat) : Bool :=
  let point := multiple * g.step
  (g.low < point && point < g.high) || (g.closed && (point == g.low || point == g.high))

/-- The multiple that stands for the float on the grid, if one reads back as it. -/
def OnGrid.choose? (g : OnGrid) : Option Nat :=
  let below := g.value / g.step
  let rest := g.value % g.step
  match g.hits below, g.hits (below + 1) with
  | true, true =>
    if 2 * rest < g.step ∨ (2 * rest = g.step ∧ below % 2 = 0) then some below else some (below + 1)
  | true, false => some below
  | false, true => some (below + 1)
  | false, false => none

/-- The first hit on the grids of `10 ^ k`, `10 ^ (k - 1)`, and so on, at most `grids` of them. -/
def firstHit? (x : Binary64) : (grids : Nat) → (k : Int) → Option Decimal
  | 0, _ => none
  | grids + 1, k =>
    match (x.onGrid k).choose? with
    | some digits => some ⟨digits, k⟩
    | none => firstHit? x grids (k - 1)

/-- A power of ten above the magnitude of the float, by less than a factor of one thousand. -/
def decimalBound (x : Binary64) : Int :=
  (((Nat.log2 x.significand + x.exponent : Nat) : Int) - 1074) * 30103 / 100000 + 1

/-- The shortest decimal that reads back as the float, without its sign. Seventeen digits always
suffice. -/
def shortest (x : Binary64) : Decimal :=
  if x.pattern = 0 then ⟨0, 0⟩ else (x.firstHit? 21 x.decimalBound).getD ⟨0, 0⟩

end Binary64

end DerivedQuery
