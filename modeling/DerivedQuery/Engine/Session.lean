import DerivedQuery.Log.Event
import DerivedQuery.Method.Operation
import DerivedQuery.Metrics
import DerivedQuery.Store.Basic

/-!
# Sessions

What an engine's work leaves behind: the state of the store, the counters, the parsed names, the events,
and how many identifiers have been made up. `EngineM` is the monad of this work: it changes a session and
may fail, and what it did before it failed stays done.

The store is asked only through `EngineM.ask`, which counts and logs every failure before it passes it
on.
-/

namespace DerivedQuery

/-- The state in which an engine works over a store with states `σ`. -/
structure Session (σ : Type) where
  store : σ
  metrics : Metrics := {}
  /-- The method names that have been parsed. -/
  prepared : List (String × Operation) := []
  /-- The events, the last one first. -/
  journal : List LogEntry := []
  /-- How many identifiers have been made up. -/
  drawn : Nat := 0

/-- Work on a session that may fail. -/
abbrev EngineM (σ : Type) := ExceptT QueryError (StateM (Session σ))

namespace EngineM

variable {σ α β : Type}

/-- The outcome of work and the session it leaves. -/
def runOn (work : EngineM σ α) (session : Session σ) : Except QueryError α × Session σ :=
  (ExceptT.run work).run session

/-- Finished work changes nothing. -/
@[simp]
theorem runOn_pure (a : α) (session : Session σ) :
    (pure a : EngineM σ α).runOn session = (.ok a, session) := rfl

/-- Failing changes nothing. -/
@[simp]
theorem runOn_throw (error : QueryError) (session : Session σ) :
    (throw error : EngineM σ α).runOn session = (.error error, session) := rfl

/-- Work goes on in the session that the work before it leaves, unless that has failed. -/
theorem runOn_bind (work : EngineM σ α) (next : α → EngineM σ β) (session : Session σ) :
    (work >>= next).runOn session =
      match work.runOn session with
      | (.ok a, later) => (next a).runOn later
      | (.error error, later) => (.error error, later) := by
  simp only [runOn, ExceptT.run_bind, StateT.run_bind]
  show (match (ExceptT.run work).run session with | (a, s) => _) = _
  rcases (ExceptT.run work).run session with ⟨a | a, s⟩ <;> rfl

/-- Logs an event. -/
def note (event : Event) (fields : List (String × String)) : EngineM σ Unit :=
  modify fun session => { session with journal := ⟨event, fields⟩ :: session.journal }

/-- Logging changes the journal alone. -/
@[simp]
theorem runOn_note (event : Event) (fields : List (String × String)) (session : Session σ) :
    (note event fields).runOn session =
      (.ok (), { session with journal := ⟨event, fields⟩ :: session.journal }) := rfl

/-- Counts. -/
def tally (change : Metrics → Metrics) : EngineM σ Unit :=
  modify fun session => { session with metrics := change session.metrics }

/-- Counting changes the counters alone. -/
@[simp]
theorem runOn_tally (change : Metrics → Metrics) (session : Session σ) :
    (tally change).runOn session =
      (.ok (), { session with metrics := change session.metrics }) := rfl

/-- What a computation without effects gives. -/
def ofExcept : Except QueryError α → EngineM σ α
  | .ok a => pure a
  | .error error => throw error

/-- A computation without effects changes nothing. -/
@[simp]
theorem runOn_ofExcept (outcome : Except QueryError α) (session : Session σ) :
    (ofExcept outcome).runOn session = (outcome, session) := by
  cases outcome <;> rfl

/-- Hands a call to the store as it is. -/
def call (store : DocumentStore σ) (call : StoreCall) :
    EngineM σ (Except StoreError call.Answer) := do
  let session ← get
  let (answer, state) := store.answer call session.store
  set { session with store := state }
  return answer

/-- A call changes the store as the store says. -/
theorem runOn_call (store : DocumentStore σ) (request : StoreCall) (session : Session σ) :
    (call store request).runOn session =
      (.ok (store.answer request session.store).1,
        { session with store := (store.answer request session.store).2 }) := rfl

/-- Asks the store. A failure is counted, logged and passed on. -/
def ask (store : DocumentStore σ) (request : StoreCall) : EngineM σ request.Answer := do
  match ← call store request with
  | .ok answer => return answer
  | .error error =>
    tally fun metrics => { metrics with storeErrors := metrics.storeErrors + 1 }
    note .storeError [("collection", request.collection), ("operation", request.name),
      ("code", error.code), ("reason", error.message)]
    throw (.storeAccess error)

/-- Asking gives the answer of the store; a failure is counted once and logged once. -/
theorem runOn_ask (store : DocumentStore σ) (request : StoreCall) (session : Session σ) :
    (ask store request).runOn session =
      match store.answer request session.store with
      | (.ok answer, state) => (.ok answer, { session with store := state })
      | (.error error, state) =>
        (.error (.storeAccess error), { session with
          store := state
          metrics := { session.metrics with storeErrors := session.metrics.storeErrors + 1 }
          journal := ⟨.storeError, [("collection", request.collection), ("operation", request.name),
            ("code", error.code), ("reason", error.message)]⟩ :: session.journal }) := by
  rw [ask, runOn_bind, runOn_call]
  rcases store.answer request session.store with ⟨answer | error, state⟩ <;> rfl

end EngineM

end DerivedQuery
