import DerivedQuery.Json.Basic

/-!
# Writing JSON

The compact text of a value: no blanks between tokens, members in the order they are kept, and in
strings only the quote, the backslash and the characters below U+0020 escaped.
-/

namespace DerivedQuery.Json

/-- A character inside a string. -/
def escapeChar (c : Char) : List Char :=
  if c = '"' then ['\\', '"']
  else if c = '\\' then ['\\', '\\']
  else if c = '\x08' then ['\\', 'b']
  else if c = '\t' then ['\\', 't']
  else if c = '\n' then ['\\', 'n']
  else if c = '\x0c' then ['\\', 'f']
  else if c = '\r' then ['\\', 'r']
  else if c.toNat < 0x20 then
    ['\\', 'u', '0', '0', Nat.digitChar (c.toNat / 16), Nat.digitChar (c.toNat % 16)]
  else [c]

/-- A string between quotes. -/
def quote (text : List Char) : List Char := '"' :: text.flatMap escapeChar ++ ['"']

mutual

/-- The characters of the compact text. -/
def chars : Json → List Char
  | null => ['n', 'u', 'l', 'l']
  | bool true => ['t', 'r', 'u', 'e']
  | bool false => ['f', 'a', 'l', 's', 'e']
  | number n => n.text
  | string s => quote s.toList
  | array [] => ['[', ']']
  | array (x :: rest) => '[' :: chars x ++ elementChars rest ++ [']']
  | object [] => ['\x7b', '\x7d']
  | object ((k, x) :: rest) =>
    '\x7b' :: quote k.toList ++ ':' :: chars x ++ memberChars rest ++ ['\x7d']

/-- The elements after the first one. -/
def elementChars : List Json → List Char
  | [] => []
  | x :: rest => ',' :: chars x ++ elementChars rest

/-- The members after the first one. -/
def memberChars : List (String × Json) → List Char
  | [] => []
  | (k, x) :: rest => ',' :: quote k.toList ++ ':' :: chars x ++ memberChars rest

end

/-- The compact text of a value. -/
def compact (value : Json) : String := String.ofList value.chars

end DerivedQuery.Json
