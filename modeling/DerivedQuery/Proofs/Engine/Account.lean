import Mathlib.Algebra.Order.Ring.Nat
import DerivedQuery.Proofs.Engine.Request
import DerivedQuery.Proofs.Store.Exchange

/-!
# Counters and what they count

The counters of an engine are totals of its exchanges with the store (`Metrics.Counts`), and of the
names that it remembers. Each step of its work keeps the account (`Session.Accounted`), so every request
does, and every step of a walk (`Engine.accounted_serve`, `Engine.accounted_next`).
-/

namespace DerivedQuery

/-- What exchanges add to the counters. -/
structure Metrics.Counts (before after : Metrics) (exchanges : List Exchange) : Prop where
  pages : after.pagesFetched = before.pagesFetched + (exchanges.filterMap Exchange.batch?).length
  documents : after.documentsReturned = before.documentsReturned
    + ((exchanges.filterMap Exchange.batch?).map (·.documents.length)).sum
  removals : after.documentsDeleted = before.documentsDeleted + exchanges.countP Exchange.removes
  failures : after.storeErrors
    = before.storeErrors + (exchanges.filterMap Exchange.fault?).length

namespace Metrics.Counts

variable {before after last : Metrics} {exchanges others : List Exchange}

/-- Without an exchange these counters stay. -/
theorem nil (hpages : after.pagesFetched = before.pagesFetched)
    (hdocuments : after.documentsReturned = before.documentsReturned)
    (hremovals : after.documentsDeleted = before.documentsDeleted)
    (hfailures : after.storeErrors = before.storeErrors) : before.Counts after [] :=
  ⟨hpages, hdocuments, hremovals, hfailures⟩

theorem append (h : before.Counts after exchanges) (h' : after.Counts last others) :
    before.Counts last (others ++ exchanges) where
  pages := by
    rw [h'.pages, h.pages, List.filterMap_append, List.length_append]
    omega
  documents := by
    rw [h'.documents, h.documents, List.filterMap_append, List.map_append, List.sum_append]
    omega
  removals := by
    rw [h'.removals, h.removals, List.countP_append]
    omega
  failures := by
    rw [h'.failures, h.failures, List.filterMap_append, List.length_append]
    omega

end Metrics.Counts

variable {σ : Type}

/-- What has been counted between two sessions: the exchanges that have been added, and the names. -/
structure Session.Accounted (session later : Session (σ × List Exchange)) : Prop where
  exchanges : ∃ exchanges, later.store.2 = exchanges ++ session.store.2 ∧
    session.metrics.Counts later.metrics exchanges
  names : ∃ names, later.prepared = names ++ session.prepared ∧
    later.metrics.queriesParsed = session.metrics.queriesParsed + names.length
  refusals : session.metrics.queriesRejected ≤ later.metrics.queriesRejected

namespace Session.Accounted

variable {session later last : Session (σ × List Exchange)}

theorem refl : session.Accounted session where
  exchanges := ⟨[], rfl, .nil rfl rfl rfl rfl⟩
  names := ⟨[], rfl, rfl⟩
  refusals := Nat.le_refl _

theorem trans (h : session.Accounted later) (h' : later.Accounted last) : session.Accounted last where
  exchanges := by
    obtain ⟨exchanges, htrace, hcounts⟩ := h.exchanges
    obtain ⟨others, htrace', hcounts'⟩ := h'.exchanges
    refine ⟨others ++ exchanges, ?_, hcounts.append hcounts'⟩
    rw [htrace', htrace, List.append_assoc]
  names := by
    obtain ⟨names, hprepared, hparsed⟩ := h.names
    obtain ⟨others, hprepared', hparsed'⟩ := h'.names
    refine ⟨others ++ names, ?_, ?_⟩
    · rw [hprepared', hprepared, List.append_assoc]
    · rw [hparsed', hparsed, List.length_append]
      omega
  refusals := Nat.le_trans h.refusals h'.refusals

/-- Work that leaves the store, the names and all counters but that of refusals alone. -/
theorem of_kept (h : session.Kept later)
    (hcounts : session.metrics.Counts later.metrics [])
    (hparsed : later.metrics.queriesParsed = session.metrics.queriesParsed)
    (hrefusals : session.metrics.queriesRejected ≤ later.metrics.queriesRejected) :
    session.Accounted later where
  exchanges := ⟨[], by rw [h.store]; rfl, hcounts⟩
  names := ⟨[], h.prepared, hparsed⟩
  refusals := hrefusals

end Session.Accounted

/-- No counter has decreased. -/
structure Metrics.Grows (before after : Metrics) : Prop where
  parsed : before.queriesParsed ≤ after.queriesParsed
  rejected : before.queriesRejected ≤ after.queriesRejected
  pages : before.pagesFetched ≤ after.pagesFetched
  documents : before.documentsReturned ≤ after.documentsReturned
  removals : before.documentsDeleted ≤ after.documentsDeleted
  failures : before.storeErrors ≤ after.storeErrors

namespace Metrics.Grows

variable {before after last : Metrics}

theorem refl : before.Grows before :=
  ⟨Nat.le_refl _, Nat.le_refl _, Nat.le_refl _, Nat.le_refl _, Nat.le_refl _, Nat.le_refl _⟩

theorem trans (h : before.Grows after) (h' : after.Grows last) : before.Grows last where
  parsed := Nat.le_trans h.parsed h'.parsed
  rejected := Nat.le_trans h.rejected h'.rejected
  pages := Nat.le_trans h.pages h'.pages
  documents := Nat.le_trans h.documents h'.documents
  removals := Nat.le_trans h.removals h'.removals
  failures := Nat.le_trans h.failures h'.failures

end Metrics.Grows

theorem Session.Accounted.grows {session later : Session (σ × List Exchange)}
    (h : session.Accounted later) : session.metrics.Grows later.metrics := by
  obtain ⟨exchanges, -, hcounts⟩ := h.exchanges
  obtain ⟨names, -, hparsed⟩ := h.names
  exact {
    parsed := hparsed ▸ Nat.le_add_right _ _
    rejected := h.refusals
    pages := hcounts.pages ▸ Nat.le_add_right _ _
    documents := hcounts.documents ▸ Nat.le_add_right _ _
    removals := hcounts.removals ▸ Nat.le_add_right _ _
    failures := hcounts.failures ▸ Nat.le_add_right _ _ }

/-- An answer is counted. -/
theorem Session.accounted_answered {store : DocumentStore σ} {session : Session (σ × List Exchange)}
    {call : StoreCall} {answer : call.Answer} {state : σ × List Exchange}
    (h : store.witnessed.answer call session.store = (.ok answer, state)) :
    session.Accounted (session.answered state call answer) := by
  have htrace := DocumentStore.exchanges_answer h
  cases call with
  | execute collection query =>
    exact ⟨⟨[_], htrace, rfl, rfl, rfl, rfl⟩, ⟨[], rfl, rfl⟩, Nat.le_refl _⟩
  | pointRead collection id partition =>
    exact ⟨⟨[_], htrace, rfl, rfl, rfl, rfl⟩, ⟨[], rfl, rfl⟩, Nat.le_refl _⟩
  | pointDelete collection id partition =>
    refine ⟨⟨[_], htrace, rfl, rfl, ?_, rfl⟩, ⟨[], rfl, rfl⟩, Nat.le_refl _⟩
    rw [List.countP_singleton]
    rfl
  | count collection query =>
    exact ⟨⟨[_], htrace, rfl, rfl, rfl, rfl⟩, ⟨[], rfl, rfl⟩, Nat.le_refl _⟩
  | upsert collection document partition =>
    exact ⟨⟨[_], htrace, rfl, rfl, rfl, rfl⟩, ⟨[], rfl, rfl⟩, Nat.le_refl _⟩

/-- A failure is counted. -/
theorem Session.accounted_failed {store : DocumentStore σ} {session : Session (σ × List Exchange)}
    {call : StoreCall} {error : StoreError} {state : σ × List Exchange}
    (h : store.witnessed.answer call session.store = (.error error, state)) :
    session.Accounted (session.failed state call error) := by
  have htrace := DocumentStore.exchanges_answer h
  refine ⟨⟨[⟨call, .error error⟩], htrace, ?_⟩, ⟨[], rfl, rfl⟩, Nat.le_refl _⟩
  cases call <;> exact ⟨rfl, rfl, rfl, rfl⟩

namespace Engine

variable {e : Engine σ} {unplaced : Prop} {failure : Option QueryError}
  {session later : Session (σ × List Exchange)}

theorem PlanStep.accounted (h : e.witnessed.PlanStep session failure later) :
    session.Accounted later := by
  cases h with
  | parsed hnew hparse =>
    exact ⟨⟨[], rfl, .nil rfl rfl rfl rfl⟩, ⟨[_], rfl, rfl⟩, Nat.le_refl _⟩
  | assembled => exact .of_kept ⟨rfl, rfl⟩ (.nil rfl rfl rfl rfl) rfl (Nat.le_refl _)
  | refused => exact .of_kept ⟨rfl, rfl⟩ (.nil rfl rfl rfl rfl) rfl (Nat.le_succ _)

theorem StoreStep.accounted (h : e.witnessed.StoreStep unplaced session failure later) :
    session.Accounted later := by
  cases h with
  | answered h => exact Session.accounted_answered h
  | failed h => exact Session.accounted_failed h
  | noted => exact .of_kept ⟨rfl, rfl⟩ (.nil rfl rfl rfl rfl) rfl (Nat.le_refl _)
  | gaveUp => exact .refl
  | refused => exact .refl

/-- **Every request keeps the account.** -/
theorem accounted_serve (e : Engine σ) (session : Session (σ × List Exchange)) (request : Request) :
    session.Accounted ((e.witnessed.serve request).runOn session).2 :=
  e.witnessed.lift_serve (fun _ => .refl) .trans PlanStep.accounted StoreStep.accounted session request

/-- **Every step of a walk keeps the account.** -/
theorem accounted_next (e : Engine σ) (session : Session (σ × List Exchange)) (pages : Pages) :
    session.Accounted ((pages.next e.store.witnessed).run session).2 :=
  (e.witnessed.chain_next True pages rfl).lift (fun _ => .refl) .trans StoreStep.accounted

end Engine

end DerivedQuery
