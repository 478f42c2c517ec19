import DerivedQuery.Engine.Pages
import DerivedQuery.Proofs.Failure

/-!
# Pages from a store

What fetching a page and one step of a walk do, for any store. Both are equations: they say what comes
back and what session is left, also if the store fails.
-/

namespace DerivedQuery

variable {σ α : Type}

/-- Counters and journal apart, the session is as it was. -/
structure Session.Kept (session later : Session σ) : Prop where
  store : later.store = session.store
  prepared : later.prepared = session.prepared

namespace Session.Kept

variable {session later last : Session σ}

theorem refl : session.Kept session := ⟨rfl, rfl⟩

theorem trans (h : session.Kept later) (h' : later.Kept last) : session.Kept last :=
  ⟨h'.store.trans h.store, h'.prepared.trans h.prepared⟩

end Session.Kept

namespace EngineM

/-- Work that cannot fail does not fail. -/
theorem runOn_lift (work : StateM (Session σ) α) (session : Session σ) :
    (liftM work : EngineM σ α).runOn session = (.ok (work.run session).1, (work.run session).2) := rfl

/-- A fetched page is what the store answers; it is counted and logged. -/
theorem runOn_fetchPage (store : DocumentStore σ) (query : Query) (session : Session σ) :
    (fetchPage store query).runOn session =
      match store.answer (.execute query.collection query) session.store with
      | (.ok (batch : Batch), state) =>
        (.ok (Page.ofState query.page batch.documents batch.continuation), { session with
          store := state
          metrics := { session.metrics with
            pagesFetched := session.metrics.pagesFetched + 1
            documentsReturned := session.metrics.documentsReturned + batch.documents.length }
          journal := ⟨.pageFetched, [("collection", query.collection),
            ("items", toString batch.documents.length),
            ("has_next", truth (!batch.continuation.isNone))]⟩ :: session.journal })
      | (.error error, state) =>
        (.error (.storeAccess error), { session with
          store := state
          metrics := { session.metrics with storeErrors := session.metrics.storeErrors + 1 }
          journal := ⟨.storeError, [("collection", query.collection), ("operation", "execute"),
            ("code", error.code), ("reason", error.message)]⟩ :: session.journal }) := by
  rw [fetchPage, runOn_bind, runOn_ask]
  rcases store.answer (.execute query.collection query) session.store with ⟨answer | error, state⟩
  · rfl
  · rfl

/-- Removing a document says what the store says, and leaves its state. -/
theorem runOn_pointDelete {store : DocumentStore σ} {collection id : String}
    {partition : Option PartitionBinding} {session : Session σ} {deleted : Bool} {state : σ}
    (h : store.answer (.pointDelete collection id partition) session.store = (.ok deleted, state)) :
    ∃ later, (pointDelete store collection id partition).runOn session = (.ok deleted, later) ∧
      later.store = state ∧ later.prepared = session.prepared := by
  rw [pointDelete, runOn_bind, runOn_ask, h]
  cases deleted <;> exact ⟨_, rfl, rfl, rfl⟩

end EngineM

namespace Pages

/-- Work that cannot fail goes on in the session that the work before it leaves. -/
theorem run_bind {β : Type} (work : StateM (Session σ) α) (next : α → StateM (Session σ) β)
    (session : Session σ) :
    (work >>= next).run session = (next (work.run session).1).run (work.run session).2 := rfl

/-- The walk behind a page. -/
def behind (pages : Pages) (page : Page Document) : Pages :=
  { pages with cursor := Cursor.behind page.next }

/-- The session behind a page: the last page of a walk is logged. -/
def noted (pages : Pages) (page : Page Document) (session : Session σ) : Session σ :=
  if page.next.isNone then
    { session with
      journal := ⟨.pagesExhausted, [("collection", pages.query.collection)]⟩ :: session.journal }
  else session

theorem kept_noted (pages : Pages) (page : Page Document) (session : Session σ) :
    session.Kept (pages.noted page session) := by
  unfold noted
  split
  · exact ⟨rfl, rfl⟩
  · exact .refl

/-- A step of a walk asks for one page, or for nothing if the walk is over. -/
theorem run_next (store : DocumentStore σ) (pages : Pages) (session : Session σ) :
    (pages.next store).run session =
      match pages.cursor.nextPage pages.query.page with
      | none => ((none, pages), session)
      | some state =>
        match (EngineM.fetchPage store (pages.query.withPage state)).runOn session with
        | (.error error, later) =>
          ((some (.error error), { pages with cursor := .exhausted }), later)
        | (.ok page, later) => ((some (.ok page), pages.behind page), pages.noted page later) := by
  rw [next]
  cases pages.cursor.nextPage pages.query.page with
  | none => rfl
  | some state =>
    dsimp only [EngineM.runOn]
    rw [run_bind]
    rcases StateT.run (EngineM.fetchPage store (pages.query.withPage state)).run session with
      ⟨error | page, later⟩
    · rfl
    · unfold noted behind
      cases hnext : page.next with
      | none => simp only [hnext]; rfl
      | some token => simp only [hnext]; rfl

/-- A walk is one step and the walk behind it, unless it is over. -/
theorem run_walk_succ (store : DocumentStore σ) (bound : Nat) (pages : Pages) (session : Session σ) :
    (walk store (bound + 1) pages).run session =
      match (pages.next store).run session with
      | ((none, pages), later) => (([], pages), later)
      | ((some outcome, pages), later) =>
        ((((outcome, pages.cursor) :: ((walk store bound pages).run later).1.1),
          ((walk store bound pages).run later).1.2), ((walk store bound pages).run later).2) := by
  rw [walk, run_bind]
  rcases (pages.next store).run session with ⟨⟨_ | outcome, pages⟩, later⟩
  · rfl
  · rfl

/-- Draining a walk takes the items of one page and drains the walk behind it. -/
theorem runOn_drain_succ (store : DocumentStore σ) (f : Document → Except QueryError α) (bound : Nat)
    (pages : Pages) (session : Session σ) :
    (drain store f (bound + 1) pages).runOn session =
      match (pages.next store).run session with
      | ((none, _), later) => (.ok [], later)
      | ((some outcome, pages), later) =>
        (do
          let items ← EngineM.ofExcept (outcome.bind (·.items.mapM f))
          let rest ← drain store f bound pages
          return items ++ rest : EngineM σ (List α)).runOn later := by
  rw [drain, EngineM.runOn_bind, EngineM.runOn_lift]
  rcases (pages.next store).run session with ⟨⟨_ | error | page, pages⟩, later⟩
  · rfl
  · rfl
  · rfl

/-- Draining documents as they are takes those of one page and drains the walk behind it. -/
theorem runOn_drain_ok_succ (store : DocumentStore σ) (bound : Nat) (pages : Pages)
    (session : Session σ) :
    (drain store .ok (bound + 1) pages).runOn session =
      match (pages.next store).run session with
      | ((none, _), later) => (.ok [], later)
      | ((some (.error error), _), later) => (.error error, later)
      | ((some (.ok page), pages), later) =>
        (do
          let rest ← drain store .ok bound pages
          return page.items ++ rest : EngineM σ (List Document)).runOn later := by
  rw [runOn_drain_succ]
  rcases (pages.next store).run session with ⟨⟨_ | error | page, pages⟩, later⟩
  · rfl
  · rfl
  · have hitems : Except.bind (Except.ok page) (fun page => page.items.mapM .ok)
        = (Except.ok page.items : Except QueryError (List Document)) := mapM_ok page.items
    simp only [hitems]
    rfl

end Pages

end DerivedQuery
