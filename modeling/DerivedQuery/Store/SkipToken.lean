import DerivedQuery.Json.Record
import DerivedQuery.Page.Token

/-!
# Tokens that count

A continuation token that says how many results to skip: the JSON text of a record with one field,
`skip`, a natural number of 64 bits. Reading is done on the bytes of the token, since what a reader
ignores need not even be UTF-8.
-/

namespace DerivedQuery.SkipToken

open Json (Form TextUnit)

/-- The bytes of a character in UTF-8. -/
def utf8 (c : Char) : List UInt8 := (String.singleton c).toUTF8.toList

/-- The text of a string in a sequence of bytes, where a character stands for the byte of its code. -/
def byteText? (units : List TextUnit) : Option String := do
  let bytes ← TextUnit.resolve? (fun c => [c.toNat.toUInt8]) utf8 units
  String.fromUTF8? ⟨bytes.toArray⟩

/-- The characters that stand for bytes. -/
def byteChars (bytes : List UInt8) : List Char := bytes.map fun byte => Char.ofNat byte.toNat

/-- How many results a token skips. -/
def skip? (token : ContinuationToken) : Option Nat := do
  let form ← Form.parse? byteText? (byteChars token.bytes)
  match ← form.record? ["skip"] with
  | [skip] => (← skip).natBelow? UInt64.size
  | _ => none

/-- The token that skips some results. -/
def ofSkip (skip : Nat) : ContinuationToken :=
  let chars := "\x7b\"skip\":".toList ++ Nat.toDigits 10 skip ++ "\x7d".toList
  ⟨chars.map fun c => c.toNat.toUInt8⟩

end DerivedQuery.SkipToken
