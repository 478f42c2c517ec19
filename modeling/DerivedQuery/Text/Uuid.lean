/-!
# Random identifiers

A version 4 UUID (RFC 9562) in its canonical text form: 32 lower-case hexadecimal digits in groups of
8, 4, 4, 4 and 12. All bits are random but the four of the version and the two of the variant.
-/

namespace DerivedQuery.Text.Uuid

/-- The lowest `count` hexadecimal digits of a number, the highest first. -/
def hexDigits (count number : Nat) : List Char :=
  (List.range count).reverse.map fun place => Nat.digitChar (number / Nat.pow 16 place % 16)

/-- The UUID whose random bits are the lowest 122 bits of `bits`: 48 bits, then the version, 12 bits,
then the variant, 62 bits. -/
def ofBits (bits : Nat) : String :=
  let low := bits % Nat.pow 2 62 + Nat.pow 2 63
  String.ofList (hexDigits 8 (bits / Nat.pow 2 90) ++ '-' :: hexDigits 4 (bits / Nat.pow 2 74) ++
    '-' :: '4' :: hexDigits 3 (bits / Nat.pow 2 62) ++ '-' :: hexDigits 4 (low / Nat.pow 2 48) ++
    '-' :: hexDigits 12 low)

end DerivedQuery.Text.Uuid
