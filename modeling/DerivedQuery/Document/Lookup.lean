import DerivedQuery.Json.Basic
import DerivedQuery.Text.Split

/-!
# Fields of documents

A field is named by a dotted path that leads through nested objects. It never leads into an array.
-/

namespace DerivedQuery

/-- A JSON value that a store keeps. -/
abbrev Document := Json

namespace Document

/-- Follows member names into a value. -/
def follow (document : Document) : List String → Option Json
  | [] => some document
  | name :: rest => (document.get? name).bind (follow · rest)

/-- The field under a dotted path. -/
def field? (document : Document) (dotted : String) : Option Json :=
  document.follow (Text.segments dotted)

end Document

end DerivedQuery
