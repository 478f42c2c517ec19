/-!
# Base64

The standard alphabet with padding (RFC 4648, section 4). Three bytes make four digits; a last group
of one or two bytes is padded with `=`. Reading accepts exactly the written forms: the padding has to
be there, and the bits of the last digit that no byte uses have to be zero.
-/

namespace DerivedQuery.Text.Base64

/-- The digit that stands for six bits. -/
def digit (bits : Nat) : Char :=
  if bits < 26 then Char.ofNat (0x41 + bits)
  else if bits < 52 then Char.ofNat (0x61 + (bits - 26))
  else if bits < 62 then Char.ofNat (0x30 + (bits - 52))
  else if bits = 62 then '+' else '/'

/-- The six bits that a digit stands for. -/
def digitBits? (c : Char) : Option Nat :=
  let code := c.toNat
  if 0x41 ≤ code && code ≤ 0x5A then some (code - 0x41)
  else if 0x61 ≤ code && code ≤ 0x7A then some (code - 0x61 + 26)
  else if 0x30 ≤ code && code ≤ 0x39 then some (code - 0x30 + 52)
  else if c = '+' then some 62
  else if c = '/' then some 63
  else none

/-- A digit read back gives its bits. -/
theorem digitBits?_digit {bits : Nat} (h : bits < 64) : digitBits? (digit bits) = some bits := by
  have hall : ∀ b ∈ List.range 64, digitBits? (digit b) = some b := by decide
  exact hall bits (List.mem_range.mpr h)

/-- The Base64 text of a list of bytes. -/
def encode : List UInt8 → List Char
  | [] => []
  | [a] => [digit (a.toNat / 4), digit (a.toNat % 4 * 16), '=', '=']
  | [a, b] =>
    [digit (a.toNat / 4), digit (a.toNat % 4 * 16 + b.toNat / 16), digit (b.toNat % 16 * 4), '=']
  | a :: b :: c :: rest =>
    digit (a.toNat / 4) :: digit (a.toNat % 4 * 16 + b.toNat / 16) ::
      digit (b.toNat % 16 * 4 + c.toNat / 64) :: digit (c.toNat % 64) :: encode rest

/-- The bytes that a Base64 text stands for. -/
def decode? : List Char → Option (List UInt8)
  | [] => some []
  | [w, x, '=', '='] => do
    let w ← digitBits? w
    let x ← digitBits? x
    if x % 16 = 0 then some [UInt8.ofNat (w * 4 + x / 16)] else none
  | [w, x, y, '='] => do
    let w ← digitBits? w
    let x ← digitBits? x
    let y ← digitBits? y
    if y % 4 = 0 then some [UInt8.ofNat (w * 4 + x / 16), UInt8.ofNat (x % 16 * 16 + y / 4)]
    else none
  | w :: x :: y :: z :: rest => do
    let w ← digitBits? w
    let x ← digitBits? x
    let y ← digitBits? y
    let z ← digitBits? z
    let rest ← decode? rest
    some (UInt8.ofNat (w * 4 + x / 16) :: UInt8.ofNat (x % 16 * 16 + y / 4) ::
      UInt8.ofNat (y % 4 * 64 + z) :: rest)
  | _ => none

end DerivedQuery.Text.Base64
