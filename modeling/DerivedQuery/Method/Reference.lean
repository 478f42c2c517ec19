import DerivedQuery.Entity.PropertyTable
import DerivedQuery.Method.Words
import DerivedQuery.Text.Split

/-!
# References to properties

A method name refers to a property by its capitalised name. A property inside nested objects is referred
to by the capitalised names of all its segments, either joined by underscores or one behind the other.
In the second form the segments are found by search: a prefix of the text is tried as the name of an
object, longer ones first, and the rest is looked for inside it.
-/

namespace DerivedQuery.Method

/-- A name below a parent path. -/
def below (parent : Option String) (name : List Char) : String :=
  match parent with
  | some path => path ++ "." ++ String.ofList name
  | none => String.ofList name

/-- All ways to cut a text before an uppercase letter that is not its first character, the longest
head first. `head` is what comes before the text, the last character first. -/
def headsFrom (head : List Char) : List Char → List (List Char × List Char)
  | [] => []
  | c :: rest =>
    headsFrom (c :: head) rest ++
      (if Text.isUppercase c && !head.isEmpty then [(head.reverse, c :: rest)] else [])

/-- All ways to cut a text before an uppercase letter that is not its first character. -/
def heads (text : List Char) : List (List Char × List Char) := headsFrom [] text

/-- The tail of a cut behind a head is no longer than the text. -/
theorem length_le_of_mem_headsFrom {head text : List Char} {cut : List Char × List Char}
    (h : cut ∈ headsFrom head text) : cut.2.length ≤ text.length := by
  induction text generalizing head with
  | nil => simp [headsFrom] at h
  | cons c rest ih =>
    rw [headsFrom, List.mem_append] at h
    rcases h with h | h
    · exact Nat.le_succ_of_le (ih h)
    · split at h
      · obtain rfl := List.mem_singleton.1 h
        exact Nat.le_refl _
      · simp at h

/-- The tail of a cut is shorter than the text. -/
theorem length_lt_of_mem_heads {text : List Char} {cut : List Char × List Char}
    (h : cut ∈ heads text) : cut.2.length < text.length := by
  cases text with
  | nil => simp [heads, headsFrom] at h
  | cons c rest =>
    simp only [heads, headsFrom, List.isEmpty_nil, Bool.not_true, Bool.and_false,
      Bool.false_eq_true, ↓reduceIte, List.append_nil] at h
    exact Nat.lt_succ_of_le (length_le_of_mem_headsFrom h)

/-- The property that a text refers to inside a parent, by search. -/
def searchFrom (table : PropertyTable) (parent : Option String) (text : List Char) :
    Option PropertyPath :=
  match table.resolve? (below parent (Text.decapitalize text)) with
  | some path => some path
  | none =>
    (heads text).attach.findSome? fun ⟨(head, rest), _⟩ =>
      let name := below parent (Text.decapitalize head)
      if (table.resolve? name).any (·.type.isObject) then searchFrom table (some name) rest else none
termination_by text.length
decreasing_by exact length_lt_of_mem_heads ‹_›

/-- The property that a text refers to. -/
def refer (table : PropertyTable) (text : List Char) : Option PropertyPath :=
  if text.isEmpty then none
  else if text.contains '_' then
    table.resolve? (".".intercalate
      ((Text.split '_' text).map fun piece => String.ofList (Text.decapitalize piece)))
  else searchFrom table none text

end DerivedQuery.Method
