/-!
# Paths

Paths as texts with slashes. `directory` is the path of the directory that a file lies in, and `join`
resolves a path against a directory. Slashes and dots at the end of a path, beyond its first part, do
not count.
-/

namespace DerivedQuery.Path

/-- A path without slashes and dots at its end; given, and returned, with its last character first. -/
def trimEnd : List Char → List Char
  | ['/'] => ['/']
  | '/' :: rest => trimEnd rest
  | '.' :: '/' :: rest => trimEnd ('/' :: rest)
  | path => path

/-- The directory that a file lies in; empty if the path does not say. -/
def directory (path : String) : String :=
  let trimmed := trimEnd path.toList.reverse
  if trimmed = ['/'] then ""
  else String.ofList (trimEnd (trimmed.dropWhile (· ≠ '/'))).reverse

/-- The path of a file given relative to a directory. -/
def join (base path : String) : String :=
  let start := base.toList
  if path.toList.head? = some '/' ∨ start.isEmpty then path
  else if start.getLast? = some '/' then base ++ path
  else base ++ "/" ++ path

end DerivedQuery.Path
