import DerivedQuery.Proofs.Engine.Walk
import DerivedQuery.Proofs.Store.Exchange

/-!
# What a walk asks of its store

A walk may be asked for its next page any number of times, also when it is over (`Pages.advance`). Over
any store, whatever it answers, the calls of a walk are those of `Query.exchanges`: one for each answer,
all of them for the query that the walk began with, the first one from the token that it began with and
each other one from the token that came with the answer before (`Pages.run_advance`). The walk is over
behind the first answer that hands on no token, and stays over (`Pages.run_advance_exhausted`).
-/

namespace DerivedQuery

/-- The token that an answer of a store hands on to the next call. -/
def handedOn : Except StoreError Batch → Option ContinuationToken
  | .ok batch => batch.continuation
  | .error _ => none

namespace Query

/-- The query for the page of the same size and order that starts at a token. -/
def startingAt (query : Query) (start : Option ContinuationToken) : Query :=
  query.withPage { query.page with continuation := start }

/-- The exchanges of a walk from a token on that is given some answers, the first one first. -/
def exchanges (query : Query) :
    (start : Option ContinuationToken) → (answers : List (Except StoreError Batch)) → List Exchange
  | _, [] => []
  | start, answer :: answers =>
    ⟨.execute query.collection (query.startingAt start), answer⟩ ::
      query.exchanges (handedOn answer) answers

end Query

/-- Where a walk stands that began at a token and has been given some answers. -/
def Cursor.following (start : Option ContinuationToken) (answers : List (Except StoreError Batch)) :
    Cursor :=
  match answers.getLast? with
  | none => .fetching start
  | some answer => .behind (handedOn answer)

namespace Pages

variable {σ : Type} {store : DocumentStore σ} {query : Query} {start : Option ContinuationToken}

/-- Asks a walk so many times for its next page. -/
def advance (store : DocumentStore σ) : (count : Nat) → Pages →
    StateM (Session σ) (List (Option (Except QueryError (Page Document))) × Pages)
  | 0, pages => return ([], pages)
  | count + 1, pages => do
    let (outcome, pages) ← pages.next store
    let (outcomes, pages) ← advance store count pages
    return (outcome :: outcomes, pages)

theorem run_advance_succ (count : Nat) (pages : Pages) (session : Session σ) :
    (advance store (count + 1) pages).run session =
      let stepped := (pages.next store).run session
      let rest := (advance store count stepped.1.2).run stepped.2
      ((stepped.1.1 :: rest.1.1, rest.1.2), rest.2) := rfl

/-- A walk that is over has nothing left that could start it again. -/
theorem run_next_exhausted (session : Session σ) :
    (next store ⟨query, .exhausted⟩).run session = ((none, ⟨query, .exhausted⟩), session) := rfl

theorem run_advance_exhausted (count : Nat) (session : Session σ) :
    (advance store count ⟨query, .exhausted⟩).run session
      = ((List.replicate count none, ⟨query, .exhausted⟩), session) := by
  induction count with
  | zero => rfl
  | succ count ih =>
    rw [run_advance_succ, run_next_exhausted]
    dsimp only
    rw [ih]
    rfl

/-- A step of a walk that is not over asks for one page, at the token where the walk stands. -/
theorem run_next_fetching (store : DocumentStore σ) (hpos : 0 < query.page.size)
    (start : Option ContinuationToken) (session : Session (σ × List Exchange)) :
    ∃ answer outcome later, (next store.witnessed ⟨query, .fetching start⟩).run session
        = ((some outcome, ⟨query, .behind (handedOn answer)⟩), later) ∧
      later.store.2
        = ⟨.execute query.collection (query.startingAt start), answer⟩ :: session.store.2 := by
  rcases hanswer : store.witnessed.answer (.execute query.collection (query.startingAt start))
    session.store with ⟨answer, state⟩
  have hkept := DocumentStore.exchanges_answer hanswer
  have hfetch := EngineM.runOn_fetchPage store.witnessed (query.startingAt start) session
  rw [show (query.startingAt start).collection = query.collection from rfl, hanswer] at hfetch
  refine ⟨answer, ?_⟩
  rw [run_next]
  simp only [nextPage_fetching hpos]
  rw [show query.withPage { query.page with continuation := start } = query.startingAt start from rfl]
  cases answer with
  | error error =>
    rw [hfetch]
    exact ⟨_, _, rfl, hkept⟩
  | ok batch =>
    rw [hfetch]
    refine ⟨_, _, rfl, ?_⟩
    rw [(kept_noted _ _ _).store]
    exact hkept

theorem following_single {answer : Except StoreError Batch} (h : handedOn answer = none) :
    Cursor.following start [answer] = .exhausted := by
  show Cursor.behind (handedOn answer) = _
  rw [h]
  rfl

theorem following_cons {answer : Except StoreError Batch} {token : ContinuationToken}
    (h : handedOn answer = some token) (answers : List (Except StoreError Batch)) :
    Cursor.following start (answer :: answers) = Cursor.following (some token) answers := by
  unfold Cursor.following
  cases answers with
  | nil =>
    show Cursor.behind (handedOn answer) = _
    rw [h]
    rfl
  | cons next rest =>
    rw [List.getLast?_cons_cons, List.getLast?_cons]

/-- What a walk has done that was asked for its next page so many times. -/
structure Advanced (query : Query) (start : Option ContinuationToken) (count : Nat)
    (answers : List (Except StoreError Batch))
    (run : (List (Option (Except QueryError (Page Document))) × Pages) × Session (σ × List Exchange))
    (session : Session (σ × List Exchange)) : Prop where
  asked : run.2.store.2 = (query.exchanges start answers).reverse ++ session.store.2
  goesOn : ∀ answer ∈ answers.dropLast, (handedOn answer).isSome
  pages : run.1.2 = ⟨query, .following start answers⟩
  outcomes : run.1.1.map (·.isSome)
    = List.replicate answers.length true ++ List.replicate (count - answers.length) false
  length_le : answers.length ≤ count
  stops : answers.length < count → Cursor.following start answers = .exhausted

/-- **A walk asks once for each answer, and asks on only from a token that it was handed.** -/
theorem run_advance (store : DocumentStore σ) (hpos : 0 < query.page.size)
    (start : Option ContinuationToken) (count : Nat) (session : Session (σ × List Exchange)) :
    ∃ answers, Advanced query start count answers
      ((advance store.witnessed count ⟨query, .fetching start⟩).run session) session := by
  induction count generalizing start session with
  | zero =>
    exact ⟨[], rfl, List.forall_mem_nil _, rfl, rfl, Nat.le_refl 0,
      fun h => absurd h (Nat.lt_irrefl 0)⟩
  | succ count ih =>
    obtain ⟨answer, outcome, stepped, hnext, hstepped⟩ := run_next_fetching store hpos start session
    rw [run_advance_succ, hnext]
    dsimp only
    cases htoken : handedOn answer with
    | none =>
      rw [Cursor.behind, run_advance_exhausted]
      refine ⟨[answer], hstepped, List.forall_mem_nil _, ?_, ?_,
        Nat.succ_le_succ (Nat.zero_le count), fun _ => ?_⟩
      · rw [following_single htoken]
      · simp
      · exact following_single htoken
    | some token =>
      rw [Cursor.behind]
      obtain ⟨answers, h⟩ := ih (some token) stepped
      refine ⟨answer :: answers, ?_, ?_, ?_, ?_, Nat.succ_le_succ h.length_le, fun hlt => ?_⟩
      · rw [h.asked, hstepped, Query.exchanges, htoken, List.reverse_cons, List.append_assoc]
        rfl
      · intro before hbefore
        cases answers with
        | nil => cases hbefore
        | cons next rest =>
          rcases List.mem_cons.mp hbefore with rfl | hmem
          · rw [htoken]
            rfl
          · exact h.goesOn before hmem
      · rw [following_cons htoken]
        exact h.pages
      · simp only [List.map_cons, h.outcomes, List.length_cons, List.replicate_succ,
          Nat.add_sub_add_right, Option.isSome_some, List.cons_append]
      · rw [following_cons htoken]
        exact h.stops (Nat.lt_of_succ_lt_succ hlt)

/-- A walk is over just if the last answer handed on no token. -/
theorem following_eq_exhausted_iff {answers : List (Except StoreError Batch)} :
    Cursor.following start answers = .exhausted ↔
      ∃ answer ∈ answers.getLast?, handedOn answer = none := by
  unfold Cursor.following
  cases answers.getLast? with
  | none => simp
  | some answer =>
    cases htoken : handedOn answer with
    | none => simp [htoken, Cursor.behind]
    | some token => simp [htoken, Cursor.behind]

/-- **Whatever a store answers, a walk asks it by the tokens that it hands on.** However often the walk is
asked for its next page, it has asked the store once for each answer: from its own token first, then from
the token of the answer before, always for the same query. It is over just if the last answer handed on
no token, and then all further pages are none. While it is not over, the next page is one more call.

A page request has a positive size, and so has the page of every query (`PageState.choose`). -/
theorem token_protocol (store : DocumentStore σ) (hpos : 0 < query.page.size) (count : Nat)
    (session : Session (σ × List Exchange)) :
    let run := (advance store.witnessed count (.ofQuery query)).run session
    ∃ answers,
      run.2.store.2 = (query.exchanges query.page.continuation answers).reverse ++ session.store.2 ∧
      (∀ answer ∈ answers.dropLast, (handedOn answer).isSome) ∧
      run.1.1.map (·.isSome)
        = List.replicate answers.length true ++ List.replicate (count - answers.length) false ∧
      (run.1.2.cursor = .exhausted ↔ ∃ answer ∈ answers.getLast?, handedOn answer = none) ∧
      (run.1.2.cursor ≠ .exhausted → answers.length = count) ∧
      (∀ start, run.1.2.cursor = .fetching start → ∃ answer outcome later,
        (next store.witnessed run.1.2).run run.2
          = ((some outcome, ⟨query, .behind (handedOn answer)⟩), later) ∧
        later.store.2
          = ⟨.execute query.collection (query.startingAt start), answer⟩ :: run.2.store.2) ∧
      (run.1.2.cursor = .exhausted → ∀ more later,
        (advance store.witnessed more run.1.2).run later
          = ((List.replicate more none, run.1.2), later)) := by
  intro run
  obtain ⟨answers, h⟩ := run_advance store hpos query.page.continuation count session
  have hcursor : run.1.2.cursor = .following query.page.continuation answers :=
    congrArg (·.cursor) h.pages
  refine ⟨answers, h.asked, h.goesOn, h.outcomes, ?_, ?_, ?_, ?_⟩
  · rw [hcursor]
    exact following_eq_exhausted_iff
  · intro hgoing
    rw [hcursor] at hgoing
    exact (h.length_le.lt_or_eq).resolve_left fun hlt => hgoing (h.stops hlt)
  · intro start hfetching
    have hpages : run.1.2 = ⟨query, .fetching start⟩ := by
      rw [show run.1.2 = _ from h.pages, ← hcursor, hfetching]
    rw [hpages]
    exact run_next_fetching store hpos start run.2
  · intro hover more later
    have hpages : run.1.2 = ⟨query, .exhausted⟩ := by
      rw [show run.1.2 = _ from h.pages, ← hcursor, hover]
    rw [hpages]
    exact run_advance_exhausted more later

theorem token_protocol_towns :
    let towns : Query := ⟨"towns", "Town", .find, ⟨.and, [Town.norway]⟩, none, ⟨2, none, []⟩⟩
    let script : List (Except StoreError Batch) :=
      [.ok { continuation := some ⟨[7]⟩ }, .error (.unavailable "away"), .ok {}]
    let run := (advance DocumentStore.scripted.witnessed 3 (.ofQuery towns)).run
      { store := (script, []) }
    run.2.store.2 = [⟨.execute "towns" (towns.startingAt (some ⟨[7]⟩)), .error (.unavailable "away")⟩,
        ⟨.execute "towns" (towns.startingAt none), .ok { continuation := some ⟨[7]⟩ }⟩] ∧
      ∀ more, (advance DocumentStore.scripted.witnessed more run.1.2).run run.2
        = ((List.replicate more none, run.1.2), run.2) := by
  intro towns script run
  obtain ⟨_, -, -, -, -, -, -, hover⟩ := token_protocol DocumentStore.scripted
    (show 0 < towns.page.size by decide) 3 { store := (script, []) }
  exact ⟨rfl, fun more => hover rfl more run.2⟩

end Pages

end DerivedQuery
