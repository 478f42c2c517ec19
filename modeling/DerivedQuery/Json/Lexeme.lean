import DerivedQuery.Json.Literal

/-!
# The lexemes of a JSON text

`Lexeme.scan` cuts a text into punctuation, words, number literals and strings. It is an automaton
that reads one character at a time: between lexemes it is in `Mode.between`, and the other modes hold
what has been read of a lexeme so far, the last character first.

Inside a string an escape for a code unit, `\uXXXX`, is kept apart from the characters. Whether the
code units of a string pair up to characters is not a matter of form and is decided by
`TextUnit.resolve?`.
-/

namespace DerivedQuery.Json

/-- A piece of a string: a character, or the code unit of an escape. -/
inductive TextUnit where
  | char (c : Char)
  | escape (code : Nat)
  deriving DecidableEq, Repr

/-- A string's content as a list, given what a character and what an escaped character contribute.
Two escapes may be the halves of one surrogate pair; a half alone stands for nothing. -/
def TextUnit.resolve? {β : Type} (literal escaped : Char → List β) :
    List TextUnit → Option (List β)
  | [] => some []
  | .char c :: rest => (resolve? literal escaped rest).map (literal c ++ ·)
  | .escape high :: .escape low :: rest =>
    if 0xD800 ≤ high ∧ high < 0xDC00 then
      if 0xDC00 ≤ low ∧ low < 0xE000 then
        (resolve? literal escaped rest).map
          (escaped (Char.ofNat (0x10000 + (high - 0xD800) * 0x400 + (low - 0xDC00))) ++ ·)
      else none
    else if 0xDC00 ≤ high ∧ high < 0xE000 then none
    else (resolve? literal escaped (.escape low :: rest)).map (escaped (Char.ofNat high) ++ ·)
  | .escape code :: rest =>
    if 0xD800 ≤ code ∧ code < 0xE000 then none
    else (resolve? literal escaped rest).map (escaped (Char.ofNat code) ++ ·)

/-- The text of a string. -/
def TextUnit.text? (units : List TextUnit) : Option String :=
  (resolve? ([·]) ([·]) units).map String.ofList

/-- A unit of a JSON text. -/
inductive Lexeme where
  | openArray
  | closeArray
  | openObject
  | closeObject
  | colon
  | comma
  | null
  | bool (value : Bool)
  | number (literal : NumberLiteral)
  | string (units : List TextUnit)
  deriving DecidableEq, Repr

namespace Lexeme

/-- A character between lexemes that stands for nothing. -/
def isGap (c : Char) : Bool := c == ' ' || c == '\t' || c == '\n' || c == '\r'

/-- A character of a word or a number literal. -/
def isBare (c : Char) : Bool := c.isAlphanum || c == '+' || c == '-' || c == '.'

/-- The word or number literal that the characters form. -/
def ofBare? (chars : List Char) : Option Lexeme :=
  if chars = ['n', 'u', 'l', 'l'] then some null
  else if chars = ['t', 'r', 'u', 'e'] then some (bool true)
  else if chars = ['f', 'a', 'l', 's', 'e'] then some (bool false)
  else (NumberLiteral.ofChars? chars).map number

/-- The lexeme that a punctuation character is. -/
def ofPunctuation? (c : Char) : Option Lexeme :=
  if c = '[' then some openArray
  else if c = ']' then some closeArray
  else if c = '\x7b' then some openObject
  else if c = '\x7d' then some closeObject
  else if c = ':' then some colon
  else if c = ',' then some comma
  else none

/-- The character that a letter behind a backslash stands for. -/
def escaped? (c : Char) : Option Char :=
  if c = '"' ∨ c = '\\' ∨ c = '/' then some c
  else if c = 'b' then some '\x08'
  else if c = 'f' then some '\x0c'
  else if c = 'n' then some '\n'
  else if c = 'r' then some '\r'
  else if c = 't' then some '\t'
  else none

/-- The value of a hexadecimal digit. -/
def hexValue? (c : Char) : Option Nat :=
  if '0' ≤ c ∧ c ≤ '9' then some (c.toNat - '0'.toNat)
  else if 'a' ≤ c ∧ c ≤ 'f' then some (c.toNat - 'a'.toNat + 10)
  else if 'A' ≤ c ∧ c ≤ 'F' then some (c.toNat - 'A'.toNat + 10)
  else none

/-- Where the automaton stands. -/
inductive Mode where
  /-- Between lexemes. -/
  | between
  /-- In a word or a number literal. -/
  | bare (read : List Char)
  /-- In a string. -/
  | string (read : List TextUnit)
  /-- Behind a backslash. -/
  | escape (read : List TextUnit)
  /-- In the digits of an escape: how many are missing, and the value of those read. -/
  | hex (read : List TextUnit) (missing : Nat) (code : Nat)
  deriving DecidableEq, Repr

/-- What has been read: the finished lexemes, the last one first, and the mode. -/
structure Progress where
  lexemes : List Lexeme
  mode : Mode
  deriving DecidableEq, Repr

/-- One character between lexemes. -/
def start? (lexemes : List Lexeme) (c : Char) : Option Progress :=
  if isGap c then some ⟨lexemes, .between⟩
  else if c = '"' then some ⟨lexemes, .string []⟩
  else if isBare c then some ⟨lexemes, .bare [c]⟩
  else (ofPunctuation? c).map fun lexeme => ⟨lexeme :: lexemes, .between⟩

/-- One character. -/
def step? (p : Progress) (c : Char) : Option Progress :=
  match p.mode with
  | .between => start? p.lexemes c
  | .bare read =>
    if isBare c then some ⟨p.lexemes, .bare (c :: read)⟩
    else do start? ((← ofBare? read.reverse) :: p.lexemes) c
  | .string read =>
    if c = '"' then some ⟨.string read.reverse :: p.lexemes, .between⟩
    else if c = '\\' then some ⟨p.lexemes, .escape read⟩
    else if c.toNat < 0x20 then none
    else some ⟨p.lexemes, .string (.char c :: read)⟩
  | .escape read =>
    if c = 'u' then some ⟨p.lexemes, .hex read 4 0⟩
    else (escaped? c).map fun e => ⟨p.lexemes, .string (.char e :: read)⟩
  | .hex read missing code => do
    let code := code * 16 + (← hexValue? c)
    if missing ≤ 1 then some ⟨p.lexemes, .string (.escape code :: read)⟩
    else some ⟨p.lexemes, .hex read (missing - 1) code⟩

/-- All characters of a text. -/
def run? (p : Progress) : List Char → Option Progress
  | [] => some p
  | c :: rest => (step? p c).bind (run? · rest)

/-- The end of the text, which no string may reach. -/
def finish? (p : Progress) : Option (List Lexeme) :=
  match p.mode with
  | .between => some p.lexemes.reverse
  | .bare read => (ofBare? read.reverse).map fun lexeme => (lexeme :: p.lexemes).reverse
  | _ => none

/-- The lexemes of a text. -/
def scan? (chars : List Char) : Option (List Lexeme) :=
  (run? ⟨[], .between⟩ chars).bind finish?

end Lexeme

end DerivedQuery.Json
