/-!
# Lines

A text of lines, each with its end.
-/

namespace DerivedQuery.Text

/-- The text of some lines. -/
def ofLines (lines : List String) : String := String.join (lines.map (· ++ "\n"))

@[simp]
theorem ofLines_nil : ofLines [] = "" := rfl

@[simp]
theorem ofLines_cons (line : String) (lines : List String) :
    ofLines (line :: lines) = line ++ "\n" ++ ofLines lines :=
  String.join_cons

theorem ofLines_singleton (line : String) : ofLines [line] = line ++ "\n" := by simp

end DerivedQuery.Text
