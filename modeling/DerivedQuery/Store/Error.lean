/-!
# Failures of a document store

What a store reports when it cannot do what it is asked.
-/

namespace DerivedQuery

/-- A failure that a document store reports. -/
inductive StoreError where
  /-- The document does not exist. -/
  | notFound (detail : String)
  /-- Concurrent change or duplicate key. -/
  | conflict (detail : String)
  /-- The continuation token was not issued by this store. -/
  | invalidContinuation (detail : String)
  /-- The store cannot be reached. -/
  | unavailable (detail : String)
  /-- The store refuses the request. -/
  | badRequest (detail : String)
  deriving DecidableEq, Repr

namespace StoreError

/-- Stable code of a failure. -/
def code : StoreError → String
  | notFound _ => "DOCREPO_STORE_NOT_FOUND"
  | conflict _ => "DOCREPO_STORE_CONFLICT"
  | invalidContinuation _ => "DOCREPO_STORE_INVALID_CONTINUATION"
  | unavailable _ => "DOCREPO_STORE_UNAVAILABLE"
  | badRequest _ => "DOCREPO_STORE_BAD_REQUEST"

/-- Text of a failure. -/
def message : StoreError → String
  | notFound detail => "Document not found: " ++ detail
  | conflict detail => "Conflict: " ++ detail
  | invalidContinuation detail => "Invalid continuation token: " ++ detail
  | unavailable detail => "Store unavailable: " ++ detail
  | badRequest detail => "Bad request: " ++ detail

end StoreError

end DerivedQuery
