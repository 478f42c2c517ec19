import DerivedQuery.Proofs.Engine.Step
import DerivedQuery.Proofs.Store.Exchange

/-!
# What work asks of its store

The exchanges of a piece of work, the first one first, together with its outcome (`EngineM.Asks`). Work
that is put together asks what its parts ask, one behind the other (`EngineM.Asks.bind`), so what a
function asks is read off its own text.

Most work only searches: it asks for pages or for numbers, and no call of it names a partition
(`Searches`). A search that succeeds gives just the documents that the store has returned (`returned`).
-/

namespace DerivedQuery

/-- The partition that a call names, if it is about one document. -/
def StoreCall.partition? : StoreCall → Option (Option PartitionBinding)
  | pointRead _ _ partition | pointDelete _ _ partition | upsert _ _ partition => some partition
  | execute .. | count .. => none

/-- No call is about one document. -/
def Searches (asked : List Exchange) : Prop := ∀ exchange ∈ asked, exchange.call.partition? = none

theorem Searches.nil : Searches [] := List.forall_mem_nil _

theorem Searches.append {asked more : List Exchange} (h : Searches asked) (h' : Searches more) :
    Searches (asked ++ more) :=
  List.forall_mem_append.mpr ⟨h, h'⟩

/-- The documents that the store has returned. -/
def returned (asked : List Exchange) : List Document :=
  (asked.filterMap Exchange.batch?).flatMap (·.documents)

@[simp]
theorem returned_append (asked more : List Exchange) :
    returned (asked ++ more) = returned asked ++ returned more := by
  simp [returned]

variable {σ α β : Type}

/-! ## Work -/

namespace EngineM

/-- The work asks the store, the first exchange first, and what it asks goes with its outcome. -/
def Asks (work : EngineM (σ × List Exchange) α) (session : Session (σ × List Exchange))
    (R : List Exchange → Except QueryError α → Prop) : Prop :=
  ∃ asked, (work.runOn session).2.store.2 = asked.reverse ++ session.store.2 ∧
    R asked (work.runOn session).1

variable {work : EngineM (σ × List Exchange) α} {next : α → EngineM (σ × List Exchange) β}
  {session later : Session (σ × List Exchange)} {R R' : List Exchange → Except QueryError α → Prop}
  {Q : List Exchange → Except QueryError β → Prop}

theorem Asks.of_eq {outcome : Except QueryError α} (h : work.runOn session = (outcome, later))
    {asked : List Exchange} (htrace : later.store.2 = asked.reverse ++ session.store.2)
    (hasked : R asked outcome) : work.Asks session R := by
  rw [Asks, h]
  exact ⟨asked, htrace, hasked⟩

theorem Asks.mono (h : work.Asks session R) (himp : ∀ asked outcome, R asked outcome → R' asked outcome) :
    work.Asks session R' := by
  obtain ⟨asked, htrace, hasked⟩ := h
  exact ⟨asked, htrace, himp _ _ hasked⟩

/-- **Work asks what its parts ask, one behind the other.** -/
theorem Asks.bind (hwork : work.Asks session R)
    (hfail : ∀ asked error, R asked (.error error) → Q asked (.error error))
    (hnext : ∀ asked a later, work.runOn session = (.ok a, later) → R asked (.ok a) →
      (next a).Asks later fun more outcome => Q (asked ++ more) outcome) :
    (work >>= next).Asks session Q := by
  obtain ⟨asked, htrace, hasked⟩ := hwork
  rcases hrun : work.runOn session with ⟨error | a, later⟩
  · rw [hrun] at htrace hasked
    have hbind : (work >>= next).runOn session = (.error error, later) := by rw [runOn_bind, hrun]
    exact .of_eq hbind htrace (hfail asked error hasked)
  · rw [hrun] at htrace hasked
    have hbind : (work >>= next).runOn session = (next a).runOn later := by rw [runOn_bind, hrun]
    obtain ⟨more, htrace', hmore⟩ := hnext asked a later hrun hasked
    rw [Asks, hbind]
    refine ⟨asked ++ more, ?_, hmore⟩
    rw [htrace', htrace, List.reverse_append, List.append_assoc]

/-- Work that leaves the store alone asks nothing. -/
theorem asks_nothing (hstore : (work.runOn session).2.store = session.store)
    (h : R [] (work.runOn session).1) : work.Asks session R :=
  ⟨[], congrArg (·.2) hstore, h⟩

/-- Behind work that leaves the store alone, all is asked by what comes next. -/
theorem Asks.behind (hstore : (work.runOn session).2.store = session.store)
    (hfail : ∀ error, Q [] (.error error))
    (hnext : ∀ a later, work.runOn session = (.ok a, later) → (next a).Asks later Q) :
    (work >>= next).Asks session Q := by
  have hwork : work.Asks session fun asked _ => asked = [] := asks_nothing hstore rfl
  refine hwork.bind ?_ ?_
  · rintro _ error rfl
    exact hfail error
  · rintro _ a later hrun rfl
    exact hnext a later hrun

/-- A computation without effects asks nothing. -/
theorem Asks.behind_ofExcept {outcome : Except QueryError α} (hfail : ∀ error, Q [] (.error error))
    (hnext : ∀ a, outcome = .ok a → (next a).Asks session Q) :
    (ofExcept outcome >>= next).Asks session Q := by
  cases outcome with
  | error error => exact asks_nothing rfl (hfail error)
  | ok a => exact hnext a rfl

/-- What comes behind the last call leaves what was asked as it is. -/
theorem Asks.before {R : List Exchange → Prop} (hwork : work.Asks session fun asked _ => R asked)
    (hnext : ∀ a later, ((next a).runOn later).2.store = later.store) :
    (work >>= next).Asks session fun asked _ => R asked := by
  refine hwork.bind (fun _ _ hasked => hasked) ?_
  intro asked a later _ hasked
  refine asks_nothing (hnext a later) ?_
  rw [List.append_nil]
  exact hasked

/-! ### One call -/

variable (store : DocumentStore σ)

/-- The call, and nothing else, is asked. -/
abbrev AsksFor (work : EngineM (σ × List Exchange) α) (session : Session (σ × List Exchange))
    (call : StoreCall) : Prop :=
  work.Asks session fun asked _ => ∃ answer, asked = [⟨call, answer⟩]

theorem asksFor_ask (call : StoreCall) : (ask store.witnessed call).AsksFor session call := by
  have hask := runOn_ask store.witnessed call session
  rcases hanswer : store.witnessed.answer call session.store with ⟨error | answer, state⟩
  · rw [hanswer] at hask
    have htrace : state.2 = [⟨call, .error error⟩].reverse ++ session.store.2 :=
      DocumentStore.exchanges_answer hanswer
    exact .of_eq hask htrace ⟨.error error, rfl⟩
  · rw [hanswer] at hask
    have htrace : state.2 = [⟨call, .ok answer⟩].reverse ++ session.store.2 :=
      DocumentStore.exchanges_answer hanswer
    exact .of_eq hask htrace ⟨.ok answer, rfl⟩

variable (collection id : String) (partition : Option PartitionBinding)

theorem asksFor_pointRead :
    (pointRead store.witnessed collection id partition).AsksFor session
      (.pointRead collection id partition) :=
  (asksFor_ask store _).before fun _ _ => rfl

theorem asksFor_pointDelete :
    (pointDelete store.witnessed collection id partition).AsksFor session
      (.pointDelete collection id partition) := by
  refine (asksFor_ask store _).before ?_
  intro deleted later
  cases deleted with
  | false => rfl
  | true => rfl

/-! ### Searches -/

/-- The work only searches, and what it finds if it succeeds is what the store has returned. -/
abbrev Finds (work : EngineM (σ × List Exchange) α) (session : Session (σ × List Exchange))
    (documents : α → List Document) : Prop :=
  work.Asks session fun asked outcome =>
    Searches asked ∧ ∀ a, outcome = .ok a → documents a = returned asked

/-- The work only searches. -/
abbrev OnlySearches (work : EngineM (σ × List Exchange) α) (session : Session (σ × List Exchange)) :
    Prop :=
  work.Asks session fun asked _ => Searches asked

theorem Finds.onlySearches {documents : α → List Document} (h : work.Finds session documents) :
    work.OnlySearches session :=
  h.mono fun _ _ hfound => hfound.1

theorem AsksFor.onlySearches {call : StoreCall} (h : work.AsksFor session call)
    (hcall : call.partition? = none) : work.OnlySearches session := by
  refine h.mono ?_
  rintro _ _ ⟨answer, rfl⟩
  exact List.forall_mem_singleton.mpr hcall

/-- A fetched page has the documents that the store has returned. -/
theorem finds_fetchPage (query : Query) :
    (fetchPage store.witnessed query).Finds session (·.items) := by
  have hfetch := runOn_fetchPage store.witnessed query session
  rcases hanswer : store.witnessed.answer (.execute query.collection query) session.store with
    ⟨error | batch, state⟩
  · rw [hanswer] at hfetch
    have htrace : state.2
        = [⟨.execute query.collection query, .error error⟩].reverse ++ session.store.2 :=
      DocumentStore.exchanges_answer hanswer
    exact .of_eq hfetch htrace ⟨List.forall_mem_singleton.mpr rfl, nofun⟩
  · rw [hanswer] at hfetch
    have htrace : state.2
        = [⟨.execute query.collection query, .ok batch⟩].reverse ++ session.store.2 :=
      DocumentStore.exchanges_answer hanswer
    refine .of_eq hfetch htrace ⟨List.forall_mem_singleton.mpr rfl, ?_⟩
    rintro _ ⟨⟩
    exact (List.append_nil batch.documents).symm

theorem onlySearches_probe (query : Query) : (probe store.witnessed query).OnlySearches session :=
  (finds_fetchPage store _).onlySearches.before fun _ _ => rfl

theorem onlySearches_countMatches (query : Query) :
    (countMatches store.witnessed query).OnlySearches session :=
  (asksFor_ask store _).onlySearches rfl

theorem onlySearches_countAll (collection : String) :
    (countAll store.witnessed collection).OnlySearches session :=
  (asksFor_ask store _).onlySearches rfl

end EngineM

/-! ## Walks -/

namespace Pages

variable (store : DocumentStore σ)

/-- A step of a walk searches, and a page that it gives has the documents that the store has returned. A
walk that is over asks nothing. -/
theorem asks_next (pages : Pages) (session : Session (σ × List Exchange)) :
    ∃ asked, ((pages.next store.witnessed).run session).2.store.2 = asked.reverse ++ session.store.2 ∧
      Searches asked ∧
      (((pages.next store.witnessed).run session).1.1 = none → asked = []) ∧
      ∀ page, ((pages.next store.witnessed).run session).1.1 = some (.ok page) →
        page.items = returned asked := by
  rw [run_next]
  cases pages.cursor.nextPage pages.query.page with
  | none => exact ⟨[], rfl, .nil, fun _ => rfl, nofun⟩
  | some state =>
    obtain ⟨asked, htrace, hsearches, hitems⟩ :
        (EngineM.fetchPage store.witnessed (pages.query.withPage state)).Finds session (·.items) :=
      EngineM.finds_fetchPage store _
    dsimp only
    rcases hfetch : (EngineM.fetchPage store.witnessed (pages.query.withPage state)).runOn session with
      ⟨error | page, fetched⟩
    · rw [hfetch] at htrace
      exact ⟨asked, htrace, hsearches, nofun, nofun⟩
    · rw [hfetch] at htrace hitems
      refine ⟨asked, ?_, hsearches, nofun, ?_⟩
      · rw [← htrace]
        exact congrArg (·.2) (kept_noted pages page fetched).store
      · rintro _ ⟨⟩
        exact hitems page rfl

/-- **Draining a walk finds what the store has returned.** -/
theorem finds_drain (bound : Nat) (pages : Pages) (session : Session (σ × List Exchange)) :
    (pages.drain store.witnessed .ok bound).Finds session id := by
  induction bound generalizing pages session with
  | zero =>
    rw [drain]
    split
    · refine EngineM.asks_nothing rfl ⟨.nil, ?_⟩
      rintro _ ⟨⟩
      rfl
    · refine EngineM.asks_nothing rfl ⟨.nil, ?_⟩
      rintro _ ⟨⟩
  | succ bound ih =>
    obtain ⟨asked, htrace, hsearches, hover, hitems⟩ := asks_next store pages session
    have hdrain := runOn_drain_ok_succ store.witnessed bound pages session
    rcases hnext : (pages.next store.witnessed).run session with ⟨⟨_ | error | page, behind⟩, later⟩
    · rw [hnext] at htrace hdrain hover
      rw [hover rfl] at htrace
      refine .of_eq hdrain htrace ⟨.nil, ?_⟩
      rintro _ ⟨⟩
      rfl
    · rw [hnext] at htrace hdrain
      refine .of_eq hdrain htrace ⟨hsearches, ?_⟩
      rintro _ ⟨⟩
    · rw [hnext] at htrace hdrain hitems
      have hrest : EngineM.Asks (do
          let rest ← drain store.witnessed .ok bound behind
          return page.items ++ rest : EngineM (σ × List Exchange) (List Document)) later
          fun more outcome => Searches more ∧
            ∀ found, outcome = .ok found → found = page.items ++ returned more := by
        refine (ih behind later).bind ?_ ?_
        · intro more error hsearched
          refine ⟨hsearched.1, ?_⟩
          rintro _ ⟨⟩
        · intro more rest drained _ hfound
          refine EngineM.asks_nothing rfl ?_
          rw [List.append_nil]
          refine ⟨hfound.1, ?_⟩
          rintro _ ⟨⟩
          exact congrArg (page.items ++ ·) (hfound.2 rest rfl)
      obtain ⟨more, htrace', hmore, hfound⟩ := hrest
      rw [EngineM.Finds, EngineM.Asks, hdrain]
      refine ⟨asked ++ more, ?_, hsearches.append hmore, ?_⟩
      · rw [List.reverse_append, List.append_assoc, ← htrace]
        exact htrace'
      · intro found hrun
        rw [returned_append, ← hitems page rfl]
        exact hfound found hrun

/-- **Collecting a walk finds what the store has returned.** -/
theorem finds_collect (pages : Pages) (session : Session (σ × List Exchange)) :
    (pages.collect store.witnessed .ok).Finds session id :=
  finds_drain store (store.walkBound session.store.1) pages session

end Pages

end DerivedQuery
