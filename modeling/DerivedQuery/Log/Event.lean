import DerivedQuery.Log.Severity

/-!
# Events

What happens while calls are answered, each with the severity it is logged at.
-/

namespace DerivedQuery

/-- What can be observed. -/
inductive Event where
  | configLoaded
  | queryParsed
  | queryRejected
  | queryAssembled
  | pageFetched
  | pagesExhausted
  | pointRead
  | pointDelete
  | deleteByQuery
  | storeError
  deriving DecidableEq, Repr

namespace Event

/-- All events. -/
def all : List Event :=
  [configLoaded, queryParsed, queryRejected, queryAssembled, pageFetched, pagesExhausted, pointRead,
    pointDelete, deleteByQuery, storeError]

/-- The name of an event. -/
def name : Event → String
  | configLoaded => "CONFIG_LOADED"
  | queryParsed => "QUERY_PARSED"
  | queryRejected => "QUERY_REJECTED"
  | queryAssembled => "QUERY_ASSEMBLED"
  | pageFetched => "PAGE_FETCHED"
  | pagesExhausted => "PAGES_EXHAUSTED"
  | pointRead => "POINT_READ"
  | pointDelete => "POINT_DELETE"
  | deleteByQuery => "DELETE_BY_QUERY"
  | storeError => "STORE_ERROR"

/-- The severity of an event. -/
def severity : Event → Severity
  | queryParsed | queryAssembled | pageFetched | pagesExhausted | pointRead => .trace
  | configLoaded | pointDelete | deleteByQuery => .info
  | queryRejected => .warn
  | storeError => .error

end Event

/-- An event that happened, with named details. -/
structure LogEntry where
  event : Event
  fields : List (String × String)
  deriving DecidableEq, Repr

end DerivedQuery
