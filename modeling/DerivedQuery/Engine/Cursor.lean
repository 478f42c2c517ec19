import DerivedQuery.Page.Basic

/-!
# Cursors

Where a walk through the pages of a query stands. A cursor starts at a token or at the first page, goes
on at the token that came with the last page, and is exhausted after a page without a token.
-/

namespace DerivedQuery

/-- Where the next page starts. -/
inductive Cursor where
  /-- At a token, or at the first page. -/
  | fetching (start : Option ContinuationToken)
  /-- There is no further page. -/
  | exhausted
  deriving DecidableEq, Repr

namespace Cursor

/-- There is no further page. -/
def isExhausted : Cursor → Bool
  | exhausted => true
  | fetching _ => false

/-- The state of the next page, in the order and of the size of `base`. -/
def nextPage (base : PageState) : Cursor → Option PageState
  | fetching (some token) => some (base.resume token)
  | fetching none => some (base.restart base.size)
  | exhausted => none

/-- The cursor behind a page with some token for the next one. -/
def behind : (next : Option ContinuationToken) → Cursor
  | some token => fetching (some token)
  | none => exhausted

end Cursor

end DerivedQuery
