import DerivedQuery.Engine.Access
import DerivedQuery.Engine.Cursor

/-!
# Walks through pages

A walk asks for one page after the other until one comes without a token. After a failure it is over.

How long a walk takes is up to the store. `Pages.drain` and `Pages.walk` go on for as many pages as they
are told to; the bound that a store gives for its own state (`DocumentStore.walkBound`) is enough for a
store that keeps its promises.
-/

namespace DerivedQuery

/-- A walk through the pages of a query. -/
structure Pages where
  query : Query
  cursor : Cursor

namespace Pages

variable {σ α : Type} (store : DocumentStore σ)

/-- The walk that starts at the page of a query. -/
def ofQuery (query : Query) : Pages := ⟨query, .fetching query.page.continuation⟩

/-- The outcome of one page: the page or the failure, if the walk is not over, and the walk behind
it. -/
def next (pages : Pages) : StateM (Session σ) (Option (Except QueryError (Page Document)) × Pages) := do
  match pages.cursor.nextPage pages.query.page with
  | none => return (none, pages)
  | some state =>
    match ← (EngineM.fetchPage store (pages.query.withPage state)).run with
    | .error error => return (some (.error error), { pages with cursor := .exhausted })
    | .ok page =>
      let cursor := Cursor.behind page.next
      if cursor.isExhausted then
        let _ ← (EngineM.note .pagesExhausted [("collection", pages.query.collection)]).run
      return (some (.ok page), { pages with cursor })

/-- The outcomes of at most `bound` pages, each with the cursor behind it. -/
def walk : (bound : Nat) → Pages →
    StateM (Session σ) (List (Except QueryError (Page Document) × Cursor) × Pages)
  | 0, pages => return ([], pages)
  | bound + 1, pages => do
    match ← pages.next store with
    | (none, pages) => return ([], pages)
    | (some outcome, pages) =>
      let (outcomes, last) ← walk bound pages
      return ((outcome, pages.cursor) :: outcomes, last)

/-- The items of all pages, each mapped. Fails with the first failure, and if the walk is not over
after `bound` pages. -/
def drain (f : Document → Except QueryError α) : (bound : Nat) → Pages → EngineM σ (List α)
  | 0, pages =>
    if pages.cursor.isExhausted then return []
    else throw (.endlessWalk pages.query.collection)
  | bound + 1, pages => do
    match ← (pages.next store : StateM (Session σ) _) with
    | (none, _) => return []
    | (some outcome, pages) =>
      let page ← EngineM.ofExcept outcome
      let items ← EngineM.ofExcept (page.items.mapM f)
      let rest ← drain f bound pages
      return items ++ rest

/-- The items of all pages, each mapped, for as long as the store says that a walk may take. -/
def collect (f : Document → Except QueryError α) (pages : Pages) : EngineM σ (List α) := do
  pages.drain store f (store.walkBound (← get).store)

end Pages

end DerivedQuery
