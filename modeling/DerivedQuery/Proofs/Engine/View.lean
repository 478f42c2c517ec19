import DerivedQuery.Proofs.Engine.Found
import DerivedQuery.Proofs.Engine.Trace
import DerivedQuery.Proofs.Store.Exchange

/-!
# Walks over a store around another one

A store around another one has the state of the other in its own. Where it hands a call on to the other
and changes nothing in the answer (`DocumentStore.Passes`), a step of a walk over it is that over the store
inside (`Pages.run_next_through`). A witnessed store does so with all calls, so whole walks are the same
(`Pages.run_walk_through`). A store that fails some calls does so with those that it answers, so a walk is
drained of the same documents if it does not fail (`Pages.runOn_drain_through`).
-/

namespace DerivedQuery

variable {σ τ : Type} {outer : DocumentStore τ} {inner : DocumentStore σ} {view : τ → σ}

/-- The session of the store inside. -/
def Session.through (view : τ → σ) (session : Session τ) : Session σ :=
  { session with store := view session.store }

namespace DocumentStore

/-- The call is handed on to the store inside, and its answer is handed back. -/
def Passes (outer : DocumentStore τ) (inner : DocumentStore σ) (view : τ → σ) (call : StoreCall)
    (state : τ) : Prop :=
  inner.answer call (view state) = ((outer.answer call state).1, view (outer.answer call state).2)

theorem answer_witnessed (store : DocumentStore σ) (call : StoreCall) (state : σ × List Exchange) :
    store.witnessed.answer call state
      = ((store.answer call state.1).1, (store.answer call state.1).2,
        ⟨call, (store.answer call state.1).1⟩ :: state.2) := rfl

/-- A call fails before it reaches the store inside, or it is answered there. -/
theorem answer_failing (store : DocumentStore σ) (fault : Nat → Option StoreError) (call : StoreCall)
    (state : σ × Nat) :
    (∃ error, (store.failing fault).answer call state = (.error error, state.1, state.2 + 1)) ∨
      (store.failing fault).answer call state
        = ((store.answer call state.1).1, (store.answer call state.1).2, state.2 + 1) := by
  unfold failing
  dsimp only
  cases fault (state.2 + 1) with
  | some error => exact .inl ⟨error, rfl⟩
  | none => exact .inr rfl

/-- A store that fails some calls hands on those that it answers. -/
theorem passes_failing {store : DocumentStore σ} {fault : Nat → Option StoreError} {call : StoreCall}
    {answer : call.Answer} {state later : σ × Nat}
    (h : (store.failing fault).answer call state = (.ok answer, later)) :
    (store.failing fault).Passes store (·.1) call state := by
  rcases store.answer_failing fault call state with ⟨error, hfailed⟩ | hpassed
  · cases hfailed.symm.trans h
  · rw [Passes, hpassed]

end DocumentStore

namespace Pages

open DocumentStore (Passes)

theorem runOn_fetchPage_through {query : Query} {session : Session τ}
    (h : outer.Passes inner view (.execute query.collection query) session.store) :
    (EngineM.fetchPage inner query).runOn (session.through view)
      = (((EngineM.fetchPage outer query).runOn session).1,
        ((EngineM.fetchPage outer query).runOn session).2.through view) := by
  have hanswer : inner.answer (.execute query.collection query) (session.through view).store = _ := h
  rw [EngineM.runOn_fetchPage, EngineM.runOn_fetchPage, hanswer]
  rcases outer.answer (.execute query.collection query) session.store with ⟨error | batch, state⟩
  · rfl
  · rfl

theorem through_noted (pages : Pages) (page : Page Document) (session : Session τ) :
    (pages.noted page session).through view = pages.noted page (session.through view) := by
  unfold noted
  split <;> rfl

/-- A step of a walk is that over the store inside, if its call is passed. -/
theorem run_next_through {pages : Pages} {session : Session τ}
    (h : ∀ state ∈ pages.cursor.nextPage pages.query.page,
      outer.Passes inner view
        (.execute pages.query.collection (pages.query.withPage state)) session.store) :
    (pages.next inner).run (session.through view)
      = (((pages.next outer).run session).1, ((pages.next outer).run session).2.through view) := by
  rw [run_next, run_next]
  cases hstate : pages.cursor.nextPage pages.query.page with
  | none => rfl
  | some state =>
    dsimp only
    rw [runOn_fetchPage_through (h state hstate)]
    rcases (EngineM.fetchPage outer (pages.query.withPage state)).runOn session with
      ⟨error | page, fetched⟩
    · rfl
    · simp only [through_noted]

variable (h : ∀ {call : StoreCall} {answer : call.Answer} {state next : τ},
  outer.answer call state = (.ok answer, next) → outer.Passes inner view call state)

include h

/-- A step of a walk that does not fail is that over the store inside. -/
theorem run_next_through_of_ok {pages behind : Pages} {session later : Session τ}
    {outcome : Option (Except QueryError (Page Document))}
    (hrun : (pages.next outer).run session = ((outcome, behind), later))
    (hok : outcome.bind failure? = none) :
    (pages.next inner).run (session.through view) = ((outcome, behind), later.through view) := by
  rw [run_next_through, hrun]
  intro state hstate
  rw [run_next, hstate] at hrun
  have hfetch := EngineM.runOn_fetchPage outer (pages.query.withPage state) session
  rw [show (pages.query.withPage state).collection = pages.query.collection from rfl] at hfetch
  rcases hanswer : outer.answer (.execute pages.query.collection (pages.query.withPage state))
    session.store with ⟨error | batch, next⟩
  · rw [hanswer] at hfetch
    simp only [hfetch] at hrun
    cases hrun
    cases hok
  · exact h hanswer

/-- **A walk that does not fail is drained of what the store inside gives.** -/
theorem runOn_drain_through {bound : Nat} {pages : Pages} {session later : Session τ}
    {found : List Document} (hrun : (pages.drain outer .ok bound).runOn session = (.ok found, later)) :
    (pages.drain inner .ok bound).runOn (session.through view) = (.ok found, later.through view) := by
  induction bound generalizing pages session found with
  | zero =>
    unfold drain at hrun ⊢
    split at hrun
    · next hover =>
      cases hrun
      rw [if_pos hover]
      rfl
    · cases hrun
  | succ bound ih =>
    rw [runOn_drain_ok_succ] at hrun ⊢
    rcases hnext : (pages.next outer).run session with ⟨⟨_ | error | page, behind⟩, stepped⟩
    · rw [hnext] at hrun
      cases hrun
      rw [run_next_through_of_ok h hnext rfl]
    · rw [hnext] at hrun
      cases hrun
    · rw [hnext] at hrun
      rw [run_next_through_of_ok h hnext rfl]
      obtain ⟨rest, drained, hdrain, hdone⟩ := EngineM.runOn_bind_eq_ok_iff.mp hrun
      cases hdone
      exact EngineM.runOn_bind_eq_ok_iff.mpr ⟨rest, _, ih hdrain, rfl⟩

end Pages

end DerivedQuery
