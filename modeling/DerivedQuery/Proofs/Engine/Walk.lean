import DerivedQuery.Engine.Basic
import DerivedQuery.Proofs.Engine.Step
import DerivedQuery.Proofs.Failure
import DerivedQuery.Proofs.Page.Cut
import DerivedQuery.Proofs.Store.Reachable
import DerivedQuery.Proofs.Store.SkipToken

/-!
# Walks over a store in memory

A walk that starts behind some results of a query gives the pages of `MemoryStore.pagesFrom` and ends
(`run_walk`), and draining it gives the results themselves (`runOn_drain`). Both go by induction on the
bound; what carries them is that the token of a page names the position at which the page behind it
starts.

A token counts with 64 bits, so the results have to be that few (`MemoryStore.Addressable`).
-/

namespace DerivedQuery

namespace MemoryStore

/-! ## Results of a query -/

/-- The documents of a collection that predicates select, in the order of its entries. -/
def matching (store : MemoryStore) (name : String) (tree : PredicateTree) : List Document :=
  ((store.entries name).map (·.2)).filter tree.holds

/-- All results of a query, in its order. -/
def results (store : MemoryStore) (query : Query) : List Document :=
  OrderKey.arrange query.order (store.matching query.collection query.tree)

/-- Every collection is as small as 64 bits can count. Memory holds no larger one. -/
def Addressable (store : MemoryStore) : Prop := ∀ name, store.size name ≤ UInt64.size

/-- A collection has no more documents than there are in all. -/
theorem size_le_total (store : MemoryStore) (name : String) : store.size name ≤ store.total := by
  obtain ⟨collections⟩ := store
  unfold size collection? total
  induction collections with
  | nil => exact Nat.le_refl 0
  | cons entry rest ih =>
    rw [List.lookup_cons, List.foldr_cons]
    split
    · exact Nat.le_add_right _ _
    · exact Nat.le_trans ih (Nat.le_add_left _ _)

theorem addressable_of_total {store : MemoryStore} (h : store.total ≤ UInt64.size) :
    store.Addressable :=
  fun name => Nat.le_trans (store.size_le_total name) h

theorem length_entries (store : MemoryStore) (name : String) :
    (store.entries name).length = store.size name := by
  unfold entries size
  cases store.collection? name <;> rfl

theorem length_matching_le (store : MemoryStore) (name : String) (tree : PredicateTree) :
    (store.matching name tree).length ≤ store.size name := by
  calc (store.matching name tree).length
    _ ≤ ((store.entries name).map (·.2)).length := List.length_filter_le _ _
    _ = store.size name := by rw [List.length_map, length_entries]

theorem arrange_perm (key : Option OrderKey) (documents : List Document) :
    (OrderKey.arrange key documents).Perm documents := by
  cases key with
  | none => exact .refl _
  | some key => exact insertionSort_perm _ _

theorem results_perm (store : MemoryStore) (query : Query) :
    (store.results query).Perm (store.matching query.collection query.tree) :=
  arrange_perm _ _

theorem length_results_le (store : MemoryStore) (query : Query) :
    (store.results query).length ≤ store.size query.collection :=
  (store.results_perm query).length_eq ▸ store.length_matching_le _ _

theorem Addressable.length_results {store : MemoryStore} (h : store.Addressable) (query : Query) :
    (store.results query).length ≤ UInt64.size :=
  Nat.le_trans (store.length_results_le query) (h query.collection)

/-- A token names the position that it was written for. -/
theorem skip_ofSkip (state : PageState) {position : Nat} (h : position < UInt64.size) :
    skip { state with continuation := some (SkipToken.ofSkip position) } = .ok position := by
  simp only [skip, SkipToken.skip?_ofSkip h]

/-- The answer to a query is cut from its results. -/
theorem execute_eq {store : MemoryStore} {query : Query} {position : Nat}
    (h : skip query.page = .ok position) :
    store.execute query.collection query
      = .ok (batch (store.results query) position (max query.page.size 1)) := by
  unfold execute results matching entries
  rw [h]
  cases store.collection? query.collection with
  | some collection => rfl
  | none =>
    have hnone : OrderKey.arrange query.order [] = [] := by cases query.order <;> rfl
    simp [hnone, batch, bind, Except.bind]

end MemoryStore

namespace Pages

open MemoryStore (pageAt pagesFrom)

variable {query : Query} {start : Option ContinuationToken} {position : Nat}
  (session : Session MemoryStore)

/-- A fetched page is the one at the position of its token. -/
theorem runOn_fetchPage_memory (hpos : 0 < query.page.size)
    (hstart : MemoryStore.skip query.page = .ok position) :
    ∃ later, (EngineM.fetchPage memoryStore query).runOn session
        = (.ok (pageAt query.page (session.store.results query) position), later) ∧
      session.Kept later := by
  have hanswer : memoryStore.answer (.execute query.collection query) session.store
      = (.ok (MemoryStore.batch (session.store.results query) position query.page.size),
        session.store) := by
    show (session.store.execute query.collection query, session.store) = _
    rw [MemoryStore.execute_eq hstart, Nat.max_eq_left hpos]
  rw [EngineM.runOn_fetchPage, hanswer]
  exact ⟨_, rfl, rfl, rfl⟩

/-- A walk that is not over asks for a page of the size and the order that it began with. -/
theorem nextPage_fetching {base : PageState} (hpos : 0 < base.size)
    (start : Option ContinuationToken) :
    (Cursor.fetching start).nextPage base = some { base with continuation := start } := by
  cases start with
  | some token => rfl
  | none =>
    show some (base.restart base.size) = _
    rw [PageState.restart, Nat.max_eq_left hpos]

/-- One step of a walk gives the page at its position. -/
theorem run_next_memory (hpos : 0 < query.page.size)
    (hstart : MemoryStore.skip { query.page with continuation := start } = .ok position) :
    ∃ later, (next memoryStore ⟨query, .fetching start⟩).run session
        = ((some (.ok (pageAt query.page (session.store.results query) position)),
            ⟨query, .behind (pageAt query.page (session.store.results query) position).next⟩),
          later) ∧
      session.Kept later := by
  have hpos' : 0 < (query.withPage { query.page with continuation := start }).page.size := hpos
  obtain ⟨fetched, hfetch, hkept⟩ := runOn_fetchPage_memory session hpos' hstart
  rw [run_next]
  simp only [nextPage_fetching hpos, hfetch]
  exact ⟨_, rfl, hkept.trans (kept_noted _ _ _)⟩

/-- What a walk tells about a page: the page, and the cursor behind it. -/
def outcome (page : Page Document) : Except QueryError (Page Document) × Cursor :=
  (.ok page, .behind page.next)

theorem run_walk_exhausted (bound : Nat) (session : Session MemoryStore) :
    (walk memoryStore bound ⟨query, .exhausted⟩).run session
      = (([], ⟨query, .exhausted⟩), session) := by
  cases bound <;> rfl

/-- **A walk gives the pages from its start on, as many as it may take, and is over behind the last.** -/
theorem run_walk (hpos : 0 < query.page.size)
    (hfits : (session.store.results query).length ≤ UInt64.size)
    (hstart : MemoryStore.skip { query.page with continuation := start } = .ok position)
    (bound : Nat) :
    ∃ last later, (walk memoryStore bound ⟨query, .fetching start⟩).run session
        = ((((pagesFrom query.page (session.store.results query) position).take bound).map outcome,
          last), later) ∧
      session.Kept later ∧
      ((pagesFrom query.page (session.store.results query) position).length ≤ bound →
        last = ⟨query, .exhausted⟩) := by
  -- The position is that of the token at which the walk stands.
  induction bound generalizing start position session with
  | zero =>
    refine ⟨_, _, rfl, .refl, fun hlen => ?_⟩
    -- There is always a first page, so a walk that may take none is not over.
    exact absurd (List.eq_nil_of_length_eq_zero (Nat.le_zero.mp hlen))
      (MemoryStore.paginates_pagesFrom hpos _ _).ne_nil
  | succ bound ih =>
    obtain ⟨stepped, hnext, hkept⟩ := run_next_memory session hpos hstart
    rw [run_walk_succ, hnext]
    have hpage := MemoryStore.next_pageAt query.page (session.store.results query) position
    by_cases hmore : position + query.page.size < (session.store.results query).length
    · rw [if_pos hmore] at hpage
      obtain ⟨last, later, hwalk, hkept', hlast⟩ := ih stepped
        (hkept.store ▸ hfits) (MemoryStore.skip_ofSkip query.page (Nat.lt_of_lt_of_le hmore hfits))
      rw [hkept.store] at hwalk hlast
      rw [MemoryStore.pagesFrom_of_more hpos hmore]
      refine ⟨last, later, ?_, hkept.trans hkept', fun hlen => hlast (Nat.le_of_succ_le_succ hlen)⟩
      simp only [hpage, Cursor.behind, hwalk, List.take_succ_cons, List.map_cons, outcome]
    · rw [if_neg hmore] at hpage
      rw [MemoryStore.pagesFrom_of_end hmore]
      refine ⟨⟨query, .exhausted⟩, stepped, ?_, hkept, fun _ => rfl⟩
      simp only [hpage, Cursor.behind, run_walk_exhausted, List.take_succ_cons, List.take_nil,
        List.map_cons, List.map_nil, outcome]

theorem runOn_drain_exhausted (bound : Nat) (session : Session MemoryStore) :
    (drain memoryStore .ok bound ⟨query, .exhausted⟩).runOn session = (.ok [], session) := by
  cases bound <;> rfl

/-- Draining a walk takes the items of its first page. -/
theorem runOn_drain_of_page {pages behind : Pages} {page : Page Document}
    {stepped later : Session MemoryStore} {rest : List Document} {bound : Nat}
    (hnext : (next memoryStore pages).run session = ((some (.ok page), behind), stepped))
    (hrest : (drain memoryStore .ok bound behind).runOn stepped = (.ok rest, later)) :
    (drain memoryStore .ok (bound + 1) pages).runOn session = (.ok (page.items ++ rest), later) := by
  rw [runOn_drain_ok_succ, hnext]
  simp only [EngineM.runOn_bind, hrest, EngineM.runOn_pure]

/-- **Draining a walk gives the results from its start on.** -/
theorem runOn_drain (hpos : 0 < query.page.size)
    (hfits : (session.store.results query).length ≤ UInt64.size)
    (hstart : MemoryStore.skip { query.page with continuation := start } = .ok position)
    {bound : Nat}
    (hbound : (pagesFrom query.page (session.store.results query) position).length ≤ bound) :
    ∃ later, (drain memoryStore .ok bound ⟨query, .fetching start⟩).runOn session
        = (.ok ((session.store.results query).drop position), later) ∧
      session.Kept later := by
  induction bound generalizing start position session with
  | zero =>
    exact absurd (List.eq_nil_of_length_eq_zero (Nat.le_zero.mp hbound))
      (MemoryStore.paginates_pagesFrom hpos _ _).ne_nil
  | succ bound ih =>
    obtain ⟨stepped, hnext, hkept⟩ := run_next_memory session hpos hstart
    have hpage := MemoryStore.next_pageAt query.page (session.store.results query) position
    have hitems := MemoryStore.items_pageAt query.page (session.store.results query) position
    by_cases hmore : position + query.page.size < (session.store.results query).length
    · rw [if_pos hmore] at hpage
      rw [hpage, Cursor.behind] at hnext
      rw [MemoryStore.pagesFrom_of_more hpos hmore, List.length_cons] at hbound
      obtain ⟨later, hdrain, hkept'⟩ := ih stepped
        (hkept.store ▸ hfits) (MemoryStore.skip_ofSkip query.page (Nat.lt_of_lt_of_le hmore hfits))
        (hkept.store ▸ Nat.le_of_succ_le_succ hbound)
      rw [hkept.store] at hdrain
      refine ⟨later, ?_, hkept.trans hkept'⟩
      rw [runOn_drain_of_page session hnext hdrain, hitems, ← List.drop_drop, List.take_append_drop]
    · rw [if_neg hmore] at hpage
      rw [hpage, Cursor.behind] at hnext
      refine ⟨stepped, ?_, hkept⟩
      rw [runOn_drain_of_page session hnext (runOn_drain_exhausted bound stepped), hitems,
        List.append_nil, List.take_of_length_le]
      rw [List.length_drop]
      omega

/-- **A store in memory says how long to drain a walk: long enough for all results.** -/
theorem runOn_collect (hpos : 0 < query.page.size)
    (hfits : (session.store.results query).length ≤ UInt64.size)
    (hskip : MemoryStore.skip query.page = .ok position) :
    ∃ later, (collect memoryStore .ok (ofQuery query)).runOn session
        = (.ok ((session.store.results query).drop position), later) ∧
      session.Kept later := by
  have hbound : (pagesFrom query.page (session.store.results query) position).length
      ≤ memoryStore.walkBound session.store := by
    have hpages := MemoryStore.length_pagesFrom_le query.page (session.store.results query) position
    have hresults := MemoryStore.length_results_le session.store query
    have htotal := session.store.size_le_total query.collection
    show _ ≤ session.store.total + 1
    omega
  exact runOn_drain session hpos hfits hskip hbound

end Pages

/-- An engine over a store in memory. -/
def Engine.inMemory (metadata : EntityMetadata) (config : EngineConfig) : Engine MemoryStore :=
  { store := memoryStore, metadata, config }

end DerivedQuery
