import DerivedQuery.Text.CaseProperty
import DerivedQuery.Text.CaseMapping

/-!
# Recognising and changing case

`isUppercase` is the Unicode property, `toLower` and `toUpper` are the full mappings of one
character, and `lowercase` and `uppercase` map a whole text. The only mapping that depends on its
surroundings is that of the capital sigma: at the end of a word it becomes `ς`, elsewhere `σ`.

ASCII characters are decided without the tables.
-/

namespace DerivedQuery.Text

/-- A character with the derived property `Uppercase`. -/
def isUppercase (c : Char) : Bool :=
  if c.toNat < 0x80 then c.isUpper else uppercaseRuns.any (·.holds c.toNat)

/-- A character with the derived property `Cased`. -/
def isCased (c : Char) : Bool :=
  if c.toNat < 0x80 then c.isAlpha else casedRuns.any (·.holds c.toNat)

/-- A character that does not interrupt a word, such as an accent or an apostrophe. -/
def isCaseIgnorable (c : Char) : Bool := caseIgnorableRuns.any (·.holds c.toNat)

/-- Looks a character up among the expansions, then among the shifts. -/
def mapCase (expansions : List (Nat × List Nat)) (shifts : List Shift) (c : Char) : List Char :=
  match expansions.lookup c.toNat with
  | some codes => codes.map Char.ofNat
  | none => [(shifts.findSome? (·.image? c.toNat)).elim c Char.ofNat]

/-- The lower case of one character, which may be longer than one character. -/
def toLower (c : Char) : List Char :=
  if c.toNat < 0x80 then [c.toLower] else mapCase lowerExpansions lowerShifts c

/-- The upper case of one character, which may be longer than one character. -/
def toUpper (c : Char) : List Char :=
  if c.toNat < 0x80 then [c.toUpper] else mapCase upperExpansions upperShifts c

/-- The first character that is not ignorable is a cased one. -/
def startsCased (text : List Char) : Bool := (text.find? (!isCaseIgnorable ·)).any isCased

/-- Lower case of the rest of a text. `inWord` says that the nearest character before it that is not
ignorable is a cased one. -/
def lowercaseFrom (inWord : Bool) : List Char → List Char
  | [] => []
  | c :: rest =>
    let mapped :=
      if c = 'Σ' then [if inWord && !startsCased rest then 'ς' else 'σ'] else toLower c
    mapped ++ lowercaseFrom (if isCaseIgnorable c then inWord else isCased c) rest

/-- The lower case of a text. -/
def lowercase (text : List Char) : List Char := lowercaseFrom false text

/-- The upper case of a text. -/
def uppercase (text : List Char) : List Char := text.flatMap toUpper

/-- A name with its first character in upper case. -/
def capitalize : List Char → List Char
  | [] => []
  | c :: rest => toUpper c ++ rest

/-- A name with its first character in lower case, unless its first two characters are both
uppercase: then it starts with an acronym and is kept. -/
def decapitalize : List Char → List Char
  | [] => []
  | c :: rest =>
    if isUppercase c && rest.head?.any isUppercase then c :: rest else toLower c ++ rest

end DerivedQuery.Text
