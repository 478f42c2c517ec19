import DerivedQuery.Proofs.Engine.Planning
import DerivedQuery.Proofs.Engine.Walk
import DerivedQuery.Proofs.Store.Settled

/-!
# Paging through the results of a call

There are two ways to all results of a find call: the walk of `Engine.findAll`, and asking for one page
after the other with `Engine.find`, each time for the page that the last one names
(`Engine.turnPages`). Over a store in memory both give the same pages, and these cut the ordered results
into full pages and a last one.

Both come from one fact about each way: it gives the pages of `MemoryStore.pagesFrom` at the position
of the call's token (`Engine.walksThrough_pagesFrom`, `Engine.turnsThrough_pagesFrom`). For the second
way the invariant is that every further call has the query of the first one for another page
(`Engine.planned_resume`): its page names the order that the first call was planned in, wherever that
order came from.
-/

namespace DerivedQuery

namespace Engine

variable {σ : Type}

/-- Pages by hand: one page, then the one that it names as the next, and so on. -/
def turnPages (e : Engine σ) (method : String) : (bound : Nat) → Call →
    EngineM σ (List (Page Document))
  | 0, _ => return []
  | bound + 1, call => do
    let page ← e.find method call
    match page.nextRequest with
    | none => return [page]
    | some request =>
      let rest ← e.turnPages method bound { arguments := call.arguments, page := some request }
      return page :: rest

/-- The walk of a call gives these pages, is over behind them and does not disturb the session. -/
def WalksThrough (e : Engine σ) (session : Session σ) (method : String) (call : Call)
    (pages : List (Page Document)) : Prop :=
  ∃ walk started, (e.findAll method call).runOn session = (.ok walk, started) ∧
    ∀ bound, pages.length ≤ bound → ∃ later,
      (walk.walk e.store bound).run started
        = ((pages.map Pages.outcome, { walk with cursor := .exhausted }), later) ∧
      e.Undisturbed session later

/-- Turning the pages of a call gives these pages and does not disturb the session. -/
def TurnsThrough (e : Engine σ) (session : Session σ) (method : String) (call : Call)
    (pages : List (Page Document)) : Prop :=
  ∀ bound, pages.length ≤ bound → ∃ later,
    (e.turnPages method bound call).runOn session = (.ok pages, later) ∧
    e.Undisturbed session later

end Engine

/-- The page size of a call: the one it asks for, else that of the configuration, but at least one. -/
def Call.pageSize (config : EngineConfig) (call : Call) : Nat :=
  (call.page.map (·.size)).getD (max 1 config.defaultPageSize)

/-- The token of a call. -/
def Call.token (call : Call) : Option ContinuationToken := call.page.bind (·.continuation)

namespace Engine

open MemoryStore (pageAt pagesFrom)

variable {m : EntityMetadata} {config : EngineConfig} {method : String} {call : Call}
  (session : Session MemoryStore) {query : Query} {position : Nat}

/-- What the query of an accepted call has from the call and from the configuration. -/
theorem page_of_planned (h : (inMemory m config).planned session method call = .ok query) :
    query.page.size = call.pageSize config ∧ query.page.continuation = call.token ∧
      query.collection = m.collection := by
  obtain ⟨operation, -, hplan⟩ := bind_eq_ok_iff.mp h
  have hpage := (inMemory m config).page_of_plan hplan
  rw [PageState.choose_eq] at hpage
  refine ⟨?_, ?_, (inMemory m config).collection_of_plan hplan⟩
  · rw [hpage]; rfl
  · rw [hpage]; rfl

theorem pageSize_pos (h : ∀ request ∈ call.page, 0 < request.size) : 0 < call.pageSize config := by
  unfold Call.pageSize
  cases hpage : call.page with
  | none => exact Nat.lt_of_lt_of_le Nat.one_pos (Nat.le_max_left _ _)
  | some request => exact h request (by rw [hpage]; exact rfl)

/-- **The walk of an accepted call gives the pages from the position of its token on.** -/
theorem walksThrough_pagesFrom (hfits : session.store.Addressable) (hpos : 0 < query.page.size)
    (hskip : MemoryStore.skip query.page = .ok position)
    (hplanned : (inMemory m config).planned session method call = .ok query)
    (hfind : query.action = .find) :
    (inMemory m config).WalksThrough session method call
      (pagesFrom query.page (session.store.results query) position) := by
  obtain ⟨started, hassemble, hkept⟩ := (inMemory m config).runOn_assembleFor_ok hplanned hfind
  have hfits' : started.store.Addressable := hkept.store ▸ hfits
  refine ⟨Pages.ofQuery query, started, ?_, fun bound hbound => ?_⟩
  · rw [findAll, EngineM.runOn_bind, hassemble]
    rfl
  · obtain ⟨last, later, hwalk, hsame, hlast⟩ :=
      Pages.run_walk started hpos (hfits'.length_results query) hskip bound
    rw [hkept.store] at hwalk hlast
    rw [hlast hbound, List.take_of_length_le hbound] at hwalk
    exact ⟨later, hwalk, hkept.trans (.of_kept hsame)⟩

/-- An accepted find call gives the page at the position of its token. -/
theorem runOn_find (hpos : 0 < query.page.size) (hskip : MemoryStore.skip query.page = .ok position)
    (hplanned : (inMemory m config).planned session method call = .ok query)
    (hfind : query.action = .find) :
    ∃ later, ((inMemory m config).find method call).runOn session
        = (.ok (pageAt query.page (session.store.results query) position), later) ∧
      (inMemory m config).Undisturbed session later := by
  obtain ⟨assembled, hassemble, hkept⟩ := (inMemory m config).runOn_assembleFor_ok hplanned hfind
  obtain ⟨fetched, hfetch, hsame⟩ := Pages.runOn_fetchPage_memory assembled hpos hskip
  rw [hkept.store] at hfetch
  refine ⟨fetched, ?_, hkept.trans (.of_kept hsame)⟩
  rw [find, EngineM.runOn_bind, hassemble]
  exact hfetch

/-- The request for the page at a position. -/
def requestAt (state : PageState) (position : Nat) : PageRequest :=
  { size := state.size, continuation := some (SkipToken.ofSkip position),
    sort := if state.sort.isEmpty then none else some state.sort }

/-- The query for the page at a position. -/
def queryAt (query : Query) (position : Nat) : Query :=
  query.withPage { query.page with continuation := some (SkipToken.ofSkip position) }

theorem nextRequest_pageAt (state : PageState) (results : List Document) (position : Nat) :
    (pageAt state results position).nextRequest
      = if position + state.size < results.length then
          some (requestAt state (position + state.size))
        else none := by
  rw [Page.nextRequest, MemoryStore.next_pageAt]
  by_cases hmore : position + state.size < results.length
  · rw [if_pos hmore, if_pos hmore]
    rfl
  · rw [if_neg hmore, if_neg hmore]
    rfl

theorem sort_requestAt (state : PageState) (position : Nat) :
    (requestAt state position).sort.getD [] = state.sort := by
  unfold requestAt
  cases state.sort <;> rfl

theorem pagesFrom_queryAt (store : MemoryStore) (query : Query) (reached position : Nat) :
    pagesFrom (queryAt query reached).page (store.results (queryAt query reached)) position
      = pagesFrom query.page (store.results query) position := by
  have hresults : store.results (queryAt query reached) = store.results query := rfl
  rw [hresults]
  exact MemoryStore.pagesFrom_congr query.page (queryAt query reached).page rfl rfl _ _

/-- A call that goes on in the order of the first call has its query, for another page. -/
theorem planned_resume {session found : Session MemoryStore} {request : PageRequest}
    (hkept : (inMemory m config).Undisturbed session found)
    (hplanned : (inMemory m config).planned session method call = .ok query)
    (hsort : request.sort.getD [] = query.page.sort) :
    (inMemory m config).planned found method
        { arguments := call.arguments, page := some request }
      = .ok (query.withPage ⟨request.size, request.continuation, query.page.sort⟩) := by
  obtain ⟨operation, hreading, hplan⟩ := bind_eq_ok_iff.mp hplanned
  rw [planned, hkept.reading, hreading]
  exact (inMemory m config).plan_resume hplan hsort

/-- **Turning the pages of an accepted call gives the pages from the position of its token on.** -/
theorem turnsThrough_pagesFrom (hfits : session.store.Addressable) (hpos : 0 < query.page.size)
    (hskip : MemoryStore.skip query.page = .ok position)
    (hplanned : (inMemory m config).planned session method call = .ok query)
    (hfind : query.action = .find) :
    (inMemory m config).TurnsThrough session method call
      (pagesFrom query.page (session.store.results query) position) := by
  intro bound
  -- The call, its query and the session all move on; what stays is the order of the query.
  induction bound generalizing call query session position with
  | zero =>
    intro hbound
    have hnil := List.eq_nil_of_length_eq_zero (Nat.le_zero.mp hbound)
    exact absurd hnil (MemoryStore.paginates_pagesFrom hpos _ _).ne_nil
  | succ bound ih =>
    intro hbound
    obtain ⟨found, hrun, hkept⟩ := runOn_find session hpos hskip hplanned hfind
    have hnext := nextRequest_pageAt query.page (session.store.results query) position
    rw [turnPages, EngineM.runOn_bind, hrun]
    by_cases hmore : position + query.page.size < (session.store.results query).length
    · rw [if_pos hmore] at hnext
      rw [MemoryStore.pagesFrom_of_more hpos hmore] at hbound ⊢
      have hreached : MemoryStore.skip (queryAt query (position + query.page.size)).page
          = .ok (position + query.page.size) := MemoryStore.skip_ofSkip query.page
        (Nat.lt_of_lt_of_le hmore (hfits.length_results query))
      have hbehind := pagesFrom_queryAt found.store query (position + query.page.size)
        (position + query.page.size)
      have hpos' : 0 < (queryAt query (position + query.page.size)).page.size := hpos
      obtain ⟨later, hrest, hkept'⟩ := ih found (hkept.store ▸ hfits) hpos' hreached
        (planned_resume hkept hplanned (sort_requestAt query.page _)) hfind
        (by rw [hbehind, hkept.store]; exact Nat.le_of_succ_le_succ hbound)
      rw [hbehind, hkept.store] at hrest
      refine ⟨later, ?_, hkept.trans hkept'⟩
      simp only [hnext, EngineM.runOn_bind, hrest, EngineM.runOn_pure]
    · rw [if_neg hmore] at hnext
      rw [MemoryStore.pagesFrom_of_end hmore]
      simp only [hnext]
      exact ⟨found, rfl, hkept⟩

/-! ## All pages of a call -/

/-- **Turning pages gives what the walk gives, and one can go on behind any page in its sort.** What
comes then are pages of the size that is asked for, with the items that are left. -/
theorem find_pages_eq_walk {assembled : Session MemoryStore}
    (hfits : session.store.Addressable)
    (hpos : ∀ request ∈ call.page, 0 < request.size)
    (hstart : ∀ token ∈ call.token, (SkipToken.skip? token).isSome)
    (haccepted : ((inMemory m config).assemble method call).runOn session = (.ok query, assembled))
    (hfind : query.action = .find) :
    ∃ pages, (inMemory m config).WalksThrough session method call pages ∧
      (inMemory m config).TurnsThrough session method call pages ∧
      ∀ delivered page rest request, pages = delivered ++ page :: rest → page.next.isSome →
        0 < request.size → request.continuation = page.next → request.sort.getD [] = page.sort →
        ∀ resumed, (inMemory m config).Undisturbed session resumed →
        ∃ others, (inMemory m config).WalksThrough resumed method
            { arguments := call.arguments, page := some request } others ∧
          (inMemory m config).TurnsThrough resumed method
            { arguments := call.arguments, page := some request } others ∧
          Paginates others request.size (rest.flatMap (·.items)) := by
  have hplanned := (inMemory m config).planned_of_assemble haccepted
  obtain ⟨hsize, htoken, -⟩ := page_of_planned session hplanned
  have hpos' : 0 < query.page.size := hsize ▸ pageSize_pos hpos
  obtain ⟨position, hskip⟩ : ∃ position, MemoryStore.skip query.page = .ok position := by
    rw [MemoryStore.skip, htoken]
    cases htoken : call.token with
    | none => exact ⟨0, rfl⟩
    | some token =>
      obtain ⟨position, hposition⟩ := Option.isSome_iff_exists.mp (hstart token htoken)
      exact ⟨position, by simp only [hposition]⟩
  refine ⟨_, walksThrough_pagesFrom session hfits hpos' hskip hplanned hfind,
    turnsThrough_pagesFrom session hfits hpos' hskip hplanned hfind, ?_⟩
  intro delivered page rest request hsplit hnext hrequest hcontinuation hsort resumed hkept
  -- The token of the page names the position at which what is left starts.
  obtain ⟨token, hnext⟩ := Option.isSome_iff_exists.mp hnext
  obtain ⟨reached, rfl, hreached, hrest⟩ := MemoryStore.pagesFrom_append hpos' hsplit hnext
  have hmem : page ∈ pagesFrom query.page (session.store.results query) position := by
    rw [hsplit]
    exact List.mem_append_right delivered List.mem_cons_self
  rw [MemoryStore.sort_of_mem_pagesFrom hmem] at hsort
  -- Going on there is a call of its own, so both ways give the pages from that position on.
  have hresumed := planned_resume hkept hplanned hsort
  have hresults : resumed.store.results
        (query.withPage ⟨request.size, request.continuation, query.page.sort⟩)
      = session.store.results query := by
    rw [hkept.store]
    rfl
  have hskip' : MemoryStore.skip (query.withPage
      ⟨request.size, request.continuation, query.page.sort⟩).page = .ok reached := by
    rw [hcontinuation, hnext]
    exact MemoryStore.skip_ofSkip ⟨request.size, none, query.page.sort⟩
      (Nat.lt_of_lt_of_le hreached (hfits.length_results query))
  have hfits' : resumed.store.Addressable := hkept.store ▸ hfits
  refine ⟨_, walksThrough_pagesFrom resumed hfits' hrequest hskip' hresumed hfind,
    turnsThrough_pagesFrom resumed hfits' hrequest hskip' hresumed hfind, ?_⟩
  rw [hresults, hrest, (MemoryStore.paginates_pagesFrom hpos' _ _).complete]
  exact MemoryStore.paginates_pagesFrom hrequest _ _

theorem find_pages_eq_walk_towns :
    ∃ pages, (inMemory Town.metadata {}).WalksThrough { store := Town.store } "findAll"
        { page := some ⟨1, some (SkipToken.ofSkip 1), some [⟨"name", .asc, false⟩]⟩ } pages ∧
      (inMemory Town.metadata {}).TurnsThrough { store := Town.store } "findAll"
        { page := some ⟨1, some (SkipToken.ofSkip 1), some [⟨"name", .asc, false⟩]⟩ } pages := by
  let session : Session MemoryStore := { store := Town.store }
  let call : Call := { page := some ⟨1, some (SkipToken.ofSkip 1), some [⟨"name", .asc, false⟩]⟩ }
  obtain ⟨assembled, haccepted, -⟩ :=
    (inMemory Town.metadata {}).runOn_assemble "findAll" call session
  have hplanned : (inMemory Town.metadata {}).planned session "findAll" call = .ok {
      collection := "towns", projection := "Town", action := .find, tree := ⟨.and, []⟩
      order := some ⟨⟨["name"], .string⟩, "name", .asc⟩
      page := ⟨1, some (SkipToken.ofSkip 1), [⟨"name", .asc, false⟩]⟩ } := rfl
  rw [hplanned] at haccepted
  have hstart : ∀ token ∈ call.token, (SkipToken.skip? token).isSome := by
    rintro token ⟨⟩
    rw [SkipToken.skip?_ofSkip (by decide)]
    rfl
  obtain ⟨pages, hwalk, hturn, -⟩ := find_pages_eq_walk session
    (MemoryStore.addressable_of_total (by decide)) (by decide) hstart haccepted rfl
  exact ⟨pages, hwalk, hturn⟩

end Engine

end DerivedQuery
