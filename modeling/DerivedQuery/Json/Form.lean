import DerivedQuery.Json.Basic
import DerivedQuery.Json.Lexeme

/-!
# Texts in the form of JSON

A `Form` is a text with the grammar of JSON, before its values are looked at: members stand in the
order of the text and may repeat a name, a number may be beyond all floats, and a string may hold half
a surrogate pair. A reader that ignores part of a text asks for no more than its form; `Form.value?`
gives the value of a whole one.
-/

namespace DerivedQuery.Json

/-- A text in the form of JSON. A number or a string that has no value is `none`. -/
inductive Form where
  | null
  | bool (value : Bool)
  | number (value? : Option Number)
  | string (value? : Option String)
  | array (elements : List Form)
  | object (members : List (Option String × Form))
  deriving Repr, Inhabited

namespace Form

/-! ## Reading -/

/-- A container that is still open, with its parts so far, the last one first. -/
inductive Frame where
  | array (elements : List Form)
  | object (members : List (Option String × Form)) (name : Option String)

/-- What the next lexeme may be. -/
inductive Expected where
  /-- A value. -/
  | value
  /-- A value, or the end of an array. -/
  | element
  /-- A name, or the end of an object. -/
  | member (members : List (Option String × Form))
  /-- A name. -/
  | name (members : List (Option String × Form))
  /-- The colon behind a name. -/
  | colon (members : List (Option String × Form)) (name : Option String)
  /-- A comma or the end of the innermost container; with none open, the end of the text. -/
  | separator (done : Form)

/-- Where reading stands: the open containers, the innermost first. -/
structure Reading where
  stack : List Frame
  expected : Expected

/-- The value that a lexeme is by itself. -/
def ofLexeme? (string? : List TextUnit → Option String) : Lexeme → Option Form
  | .null => some null
  | .bool b => some (bool b)
  | .number literal => some (number literal.number?)
  | .string units => some (string (string? units))
  | _ => none

/-- A lexeme where a value may start. -/
def startValue? (string? : List TextUnit → Option String) (stack : List Frame) (lexeme : Lexeme) :
    Option Reading :=
  match lexeme with
  | .openArray => some ⟨.array [] :: stack, .element⟩
  | .openObject => some ⟨stack, .member []⟩
  | lexeme => (ofLexeme? string? lexeme).map fun form => ⟨stack, .separator form⟩

/-- One lexeme. -/
def step? (string? : List TextUnit → Option String) (r : Reading) (lexeme : Lexeme) :
    Option Reading :=
  match r.expected, lexeme, r.stack with
  | .value, lexeme, stack => startValue? string? stack lexeme
  | .element, .closeArray, .array elements :: stack =>
    some ⟨stack, .separator (array elements.reverse)⟩
  | .element, lexeme, stack => startValue? string? stack lexeme
  | .member members, .closeObject, stack => some ⟨stack, .separator (object members.reverse)⟩
  | .member members, .string units, stack => some ⟨stack, .colon members (string? units)⟩
  | .name members, .string units, stack => some ⟨stack, .colon members (string? units)⟩
  | .colon members name, .colon, stack => some ⟨.object members name :: stack, .value⟩
  | .separator done, .comma, .array elements :: stack =>
    some ⟨.array (done :: elements) :: stack, .value⟩
  | .separator done, .comma, .object members name :: stack =>
    some ⟨stack, .name ((name, done) :: members)⟩
  | .separator done, .closeArray, .array elements :: stack =>
    some ⟨stack, .separator (array (done :: elements).reverse)⟩
  | .separator done, .closeObject, .object members name :: stack =>
    some ⟨stack, .separator (object ((name, done) :: members).reverse)⟩
  | _, _, _ => none

/-- All lexemes of a text. -/
def run? (string? : List TextUnit → Option String) (r : Reading) : List Lexeme → Option Reading
  | [] => some r
  | lexeme :: rest => (step? string? r lexeme).bind (run? string? · rest)

/-- The form of a text, given how the content of a string is read. -/
def parse? (string? : List TextUnit → Option String) (chars : List Char) : Option Form := do
  let lexemes ← Lexeme.scan? chars
  match ← run? string? ⟨[], .value⟩ lexemes with
  | ⟨[], .separator done⟩ => some done
  | _ => none

/-- The form of a text. -/
def ofText? (text : String) : Option Form := parse? TextUnit.text? text.toList

/-! ## Value -/

mutual

/-- The value, if every number and string has one and containers nest no deeper than `levels`. -/
def value? (levels : Nat) : Form → Option Json
  | null => some .null
  | bool b => some (.bool b)
  | number n => n.map .number
  | string s => s.map .string
  | array elements =>
    if levels = 0 then none else (elementValues? (levels - 1) elements).map .array
  | object members =>
    if levels = 0 then none else (memberValues? (levels - 1) members).map .ofMembers

/-- The values of elements. -/
def elementValues? (levels : Nat) : List Form → Option (List Json)
  | [] => some []
  | x :: rest => do some ((← x.value? levels) :: (← elementValues? levels rest))

/-- The names and values of members. -/
def memberValues? (levels : Nat) : List (Option String × Form) → Option (List (String × Json))
  | [] => some []
  | (name, x) :: rest => do some ((← name, ← x.value? levels) :: (← memberValues? levels rest))

end

mutual

/-- The form of a value. -/
def ofValue : Json → Form
  | .null => null
  | .bool b => bool b
  | .number n => number (some n)
  | .string s => string (some s)
  | .array elements => array (ofElements elements)
  | .object members => object (ofMembers members)

/-- The forms of elements. -/
def ofElements : List Json → List Form
  | [] => []
  | x :: rest => ofValue x :: ofElements rest

/-- The forms of members. -/
def ofMembers : List (String × Json) → List (Option String × Form)
  | [] => []
  | (name, x) :: rest => (some name, ofValue x) :: ofMembers rest

end

end Form

/-- Containers nest at most this deep. -/
def maxLevels : Nat := 127

/-- The value of a JSON text. -/
def parse? (text : String) : Option Json := (Form.ofText? text).bind (·.value? maxLevels)

end DerivedQuery.Json
