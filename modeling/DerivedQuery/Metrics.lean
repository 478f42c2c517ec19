/-!
# Counters

What an engine counts while it answers calls. Counters only grow.
-/

namespace DerivedQuery

/-- The counters of an engine, or of several engines that share them. -/
structure Metrics where
  /-- Method names parsed, not counting those remembered from before. -/
  queriesParsed : Nat := 0
  /-- Calls rejected before they reached the store. -/
  queriesRejected : Nat := 0
  /-- Pages that the store returned. -/
  pagesFetched : Nat := 0
  /-- Documents on those pages. -/
  documentsReturned : Nat := 0
  /-- Documents removed. -/
  documentsDeleted : Nat := 0
  /-- Failures that the store reported. -/
  storeErrors : Nat := 0
  deriving DecidableEq, Repr, Inhabited

end DerivedQuery
