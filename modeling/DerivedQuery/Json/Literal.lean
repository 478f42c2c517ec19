import DerivedQuery.Json.Number
import DerivedQuery.Text.Digits

/-!
# Number literals

A literal has digits, perhaps a fraction, perhaps an exponent. `NumberLiteral.ofChars?` decides the
form and `NumberLiteral.number?` the value.

A literal without fraction and exponent is an integer if it fits 64 bits. Any other literal is a float:
its digits are gathered into a 64-bit significand as long as they fit, the float nearest to the
significand is scaled by a power of ten, and a literal beyond the largest float has no value.
-/

namespace DerivedQuery.Json

/-- The parts of a number literal. -/
structure NumberLiteral where
  negative : Bool
  /-- Digits before the point. -/
  whole : List Char
  /-- Digits behind the point, empty if there is none. -/
  fraction : List Char
  /-- Sign and digits of the exponent. -/
  exponent : Option (Bool × List Char)
  deriving DecidableEq, Repr

namespace NumberLiteral

open Text (digitValue digitsValue)

/-! ## Form -/

/-- At least one digit. -/
def digits? (chars : List Char) : Option (List Char) :=
  if chars.isEmpty || !chars.all Char.isDigit then none else some chars

/-- Digits without a leading zero, or a single zero. -/
def whole? (chars : List Char) : Option (List Char) :=
  if chars.head? = some '0' ∧ chars.length ≠ 1 then none else digits? chars

/-- What follows the letter of the exponent. -/
def exponent? : List Char → Option (Bool × List Char)
  | '-' :: rest => (digits? rest).map ((true, ·))
  | '+' :: rest => (digits? rest).map ((false, ·))
  | chars => (digits? chars).map ((false, ·))

/-- The exponent, if there is a letter for it. -/
def tail? : List Char → Option (Option (Bool × List Char))
  | [] => some none
  | _ :: rest => (exponent? rest).map some

/-- The fraction, if there is a point. -/
def fraction? : List Char → Option (List Char)
  | [] => some []
  | '.' :: rest => digits? rest
  | _ => none

/-- Splits at the letter of the exponent, then at the point. -/
def unsigned? (negative : Bool) (chars : List Char) : Option NumberLiteral := do
  let isMark := fun c => c == 'e' || c == 'E'
  let mantissa := chars.takeWhile (!isMark ·)
  let exponent ← tail? (chars.dropWhile (!isMark ·))
  let whole ← whole? (mantissa.takeWhile (· != '.'))
  let fraction ← fraction? (mantissa.dropWhile (· != '.'))
  some ⟨negative, whole, fraction, exponent⟩

/-- The literal that the characters form. -/
def ofChars? : List Char → Option NumberLiteral
  | '-' :: rest => unsigned? true rest
  | chars => unsigned? false chars

/-! ## Value -/

/-- Appends digits to a significand as long as it fits 64 bits, and gives the digits left over. -/
def gather (significand : Nat) : List Char → Nat × List Char
  | [] => (significand, [])
  | c :: rest =>
    let next := significand * 10 + digitValue c
    if next < UInt64.size then gather next rest else (significand, c :: rest)

/-- A float divided by a power of ten, in steps of at most `10 ^ 308`. -/
def shrink (x : Binary64) (places : Nat) : Binary64 :=
  if places ≤ 308 then x.div (.ofInt (Nat.pow 10 places))
  else if x.pattern = 0 then x
  else shrink (x.div (.ofInt (Nat.pow 10 308))) (places - 308)
termination_by places

/-- The float `significand · 10 ^ exponent`, if it is not too large. -/
def scale? (significand : Nat) (exponent : Int) : Option Binary64 :=
  let x := Binary64.ofInt significand
  if exponent < 0 then some (shrink x exponent.natAbs)
  else if x.pattern = 0 then some x
  else if exponent ≤ 308 then
    let y := x.mul (.ofInt (Nat.pow 10 exponent.toNat))
    if y.isFinite then some y else none
  else none

/-- The value of the exponent. -/
def exponentValue (literal : NumberLiteral) : Int :=
  match literal.exponent with
  | none => 0
  | some (true, digits) => -(digitsValue digits : Int)
  | some (false, digits) => digitsValue digits

/-- The value of the literal as a float, if it is not too large. An exponent beyond 31 bits counts
alone: downwards everything is zero, upwards only zero is. -/
def float? (literal : NumberLiteral) : Option Binary64 := do
  let (significand, wholeLeft) := gather 0 literal.whole
  let (significand, fractionLeft) := gather significand literal.fraction
  let places := (literal.fraction.length - fractionLeft.length : Nat)
  let exponent := literal.exponentValue
  let magnitude ←
    if 0x80000000 ≤ exponent.natAbs then
      if significand = 0 ∨ exponent < 0 then some Binary64.zero else none
    else scale? significand ((wholeLeft.length : Int) - places + exponent)
  some ⟨literal.negative, magnitude.pattern⟩

/-- The value of the literal, if it is not too large. A negative zero is a float. -/
def number? (literal : NumberLiteral) : Option Number :=
  let value := digitsValue literal.whole
  if literal.fraction.isEmpty && literal.exponent.isNone then
    if !literal.negative && value < UInt64.size then some (.integer value)
    else if literal.negative && 0 < value && value ≤ int64Half then some (.integer (-(value : Int)))
    else literal.float?.map .float
  else literal.float?.map .float

end NumberLiteral

end DerivedQuery.Json
