/-!
# Splitting texts

Cutting a text at every occurrence of one character.
-/

namespace DerivedQuery.Text

/-- The pieces of a text between the occurrences of a character; there is always at least one. -/
def split (mark : Char) : List Char → List (List Char)
  | [] => [[]]
  | c :: rest =>
    match split mark rest with
    | [] => [[]]
    | piece :: pieces => if c = mark then [] :: piece :: pieces else (c :: piece) :: pieces

/-- The segments of a dotted path. -/
def segments (dotted : String) : List String := (split '.' dotted.toList).map String.ofList

end DerivedQuery.Text
