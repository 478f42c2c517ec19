import DerivedQuery.Text.Case

/-!
# Words in method names

A method name is a row of capitalised words. A keyword is recognised only as a whole word: behind it the
name ends, or the next word starts with an uppercase letter. The functions here find keywords and cut a
name at them.
-/

namespace DerivedQuery.Method

/-- The name ends here, or a new word starts. -/
def startsWord : List Char → Bool
  | [] => true
  | c :: _ => Text.isUppercase c

/-- The text behind a word, if the text starts with that word. -/
def behind? (word text : List Char) : Option (List Char) :=
  if word.isPrefixOf text && startsWord (text.drop word.length) then some (text.drop word.length)
  else none

/-- The text before the first occurrence of a word and the text behind it. -/
def splitFirst? (word : List Char) : List Char → Option (List Char × List Char)
  | [] => none
  | c :: rest =>
    match behind? word (c :: rest) with
    | some text => some ([], text)
    | none => (splitFirst? word rest).map fun (before, text) => (c :: before, text)

/-- The text before the last occurrence of a word and the text behind it. -/
def splitLast? (word : List Char) : List Char → Option (List Char × List Char)
  | [] => none
  | c :: rest =>
    match splitLast? word rest with
    | some (before, text) => some (c :: before, text)
    | none => (behind? word (c :: rest)).map ([], ·)

/-- A word with a meaning. -/
abbrev Word (ω : Type) := List Char × ω

/-- The meaning and the length of the first listed word that the text starts with. -/
def wordAt? {ω : Type} (words : List (Word ω)) (text : List Char) : Option (ω × Nat) :=
  words.findSome? fun (word, meaning) => (behind? word text).map fun _ => (meaning, word.length)

/-- Cuts a text at every word of a list: the pieces that a word ends, each with that word's meaning,
and what is left at the end. A piece that a word ends is never empty; `piece` is what has been read
of the current one, the last character first. -/
def cutFrom {ω : Type} (words : List (Word ω)) (piece : List Char) :
    List Char → List (List Char × ω) × List Char
  | [] => ([], piece.reverse)
  | c :: rest =>
    match if piece.isEmpty then none else wordAt? words (c :: rest) with
    | some (meaning, length) =>
      let (pieces, last) := cutFrom words [] (rest.drop (length - 1))
      ((piece.reverse, meaning) :: pieces, last)
    | none => cutFrom words (c :: piece) rest
termination_by text => text.length
decreasing_by all_goals simp only [List.length_drop, List.length_cons]; omega

/-- Cuts a text at every word of a list. -/
def cut {ω : Type} (words : List (Word ω)) (text : List Char) :
    List (List Char × ω) × List Char := cutFrom words [] text

/-- The text without an ending, if it has that ending. -/
def withoutEnding? (ending text : List Char) : Option (List Char) :=
  if ending.isSuffixOf text then some (text.take (text.length - ending.length)) else none

/-- The text without the first of the endings that it has, and whether it has one. -/
def dropEnding (endings : List (List Char)) (text : List Char) : List Char × Bool :=
  match endings.findSome? (withoutEnding? · text) with
  | some rest => (rest, true)
  | none => (text, false)

/-- The text behind the first occurrence of a marker, whole word or not. -/
def behindMarker? (marker : List Char) : List Char → Option (List Char)
  | [] => none
  | c :: rest =>
    if marker.isPrefixOf (c :: rest) then some ((c :: rest).drop marker.length)
    else behindMarker? marker rest

end DerivedQuery.Method
