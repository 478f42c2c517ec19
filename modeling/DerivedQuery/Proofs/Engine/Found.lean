import DerivedQuery.Proofs.Engine.Request
import DerivedQuery.Proofs.Engine.Walk
import DerivedQuery.Proofs.Partition.Binding
import DerivedQuery.Store.Recording

/-!
# Documents that a walk finds

A store whose answers to queries are taken from some memory (`DocumentStore.Reads`) gives a walk only
documents that its query selects, however the walk ends and whatever its tokens are
(`Pages.mem_of_drain`). So a removal by method name collects only documents that name their partitions,
because its predicates pin one (`Engine.placed_of_collected`). A removal of everything has no predicates
and takes what there is (`Engine.mem_of_deleteAll`).
-/

namespace DerivedQuery

/-! ## Stores that show a memory -/

/-- Queries are answered from the memory that the store shows, and leave it alone. -/
structure DocumentStore.Reads {σ : Type} (store : DocumentStore σ) (memory : σ → MemoryStore) :
    Prop where
  selected : ∀ {query : Query} {state later : σ} {batch : Batch},
    store.answer (.execute query.collection query) state = (.ok batch, later) →
    ∀ document ∈ batch.documents, document ∈ (memory state).matching query.collection query.tree
  kept : ∀ (query : Query) (state : σ),
    memory (store.answer (.execute query.collection query) state).2 = memory state

theorem reads_memoryStore : memoryStore.Reads id where
  selected := by
    intro query state later batch h document hmem
    have hexecute : state.execute query.collection query = .ok batch := (Prod.mk.inj h).1
    obtain ⟨position, hskip, -⟩ := bind_eq_ok_iff.mp hexecute
    rw [MemoryStore.execute_eq hskip] at hexecute
    cases hexecute
    exact (state.results_perm query).mem_iff.mp (List.mem_of_mem_take (List.mem_of_mem_drop hmem))
  kept _ _ := rfl

/-- A recorded store shows what the store inside shows. -/
theorem DocumentStore.Reads.recorded {σ : Type} {store : DocumentStore σ} {memory : σ → MemoryStore}
    (h : store.Reads memory) : store.recorded.Reads (memory ·.1) where
  selected := by
    intro query state later batch hanswer document hmem
    exact h.selected (Prod.ext (Prod.mk.inj hanswer).1 rfl) document hmem
  kept query state := h.kept query state.1

namespace EngineM

variable {σ α β : Type}

/-- Work succeeds if both of its parts do, one behind the other. -/
theorem runOn_bind_eq_ok_iff {work : EngineM σ α} {next : α → EngineM σ β}
    {session last : Session σ} {b : β} :
    (work >>= next).runOn session = (.ok b, last) ↔
      ∃ a later, work.runOn session = (.ok a, later) ∧ (next a).runOn later = (.ok b, last) := by
  rw [runOn_bind]
  rcases work.runOn session with ⟨error | a, later⟩
  · constructor
    · intro h
      cases h
    · rintro ⟨_, _, ⟨⟩, -⟩
  · constructor
    · exact fun h => ⟨a, later, rfl, h⟩
    · rintro ⟨_, _, ⟨⟩, h⟩
      exact h

/-- A page has documents that its query selects. -/
theorem mem_of_fetchPage {store : DocumentStore σ} {memory : σ → MemoryStore}
    (h : store.Reads memory) {query : Query} {session later : Session σ} {page : Page Document}
    (hrun : (fetchPage store query).runOn session = (.ok page, later)) :
    (∀ document ∈ page.items,
      document ∈ (memory session.store).matching query.collection query.tree) ∧
    memory later.store = memory session.store := by
  have hkept := h.kept query session.store
  rw [runOn_fetchPage] at hrun
  rcases hanswer : store.answer (.execute query.collection query) session.store with
    ⟨error | batch, state⟩
  · rw [hanswer] at hrun
    cases hrun
  · rw [hanswer] at hrun hkept
    cases hrun
    exact ⟨h.selected hanswer, hkept⟩

end EngineM

/-! ## Walks -/

/-- **A walk finds only documents that its query selects.** -/
theorem Pages.mem_of_drain {σ : Type} {store : DocumentStore σ} {memory : σ → MemoryStore}
    (h : store.Reads memory) (bound : Nat) {pages : Pages} {session later : Session σ}
    {found : List Document} (hrun : (pages.drain store .ok bound).runOn session = (.ok found, later)) :
    ∀ document ∈ found,
      document ∈ (memory session.store).matching pages.query.collection pages.query.tree := by
  induction bound generalizing pages session found with
  | zero =>
    rw [drain] at hrun
    split at hrun
    · cases hrun
      intro document hmem
      cases hmem
    · cases hrun
  | succ bound ih =>
    rw [runOn_drain_ok_succ, run_next] at hrun
    cases hstate : pages.cursor.nextPage pages.query.page with
    | none =>
      rw [hstate] at hrun
      cases hrun
      intro document hmem
      cases hmem
    | some state =>
      rw [hstate] at hrun
      rcases hfetch : (EngineM.fetchPage store (pages.query.withPage state)).runOn session with
        ⟨error | page, fetched⟩
      · simp only [hfetch] at hrun
        cases hrun
      · obtain ⟨hitems, hmemory⟩ := EngineM.mem_of_fetchPage h hfetch
        simp only [hfetch] at hrun
        -- The page is logged if it is the last one, which leaves the memory alone.
        have hnoted := (kept_noted pages page fetched).store
        obtain ⟨rest, drained, hdrain, hdone⟩ := EngineM.runOn_bind_eq_ok_iff.mp hrun
        cases hdone
        have hbehind := ih hdrain
        rw [hnoted, hmemory] at hbehind
        intro document hmem
        rcases List.mem_append.mp hmem with hmem | hmem
        · exact hitems document hmem
        · exact hbehind document hmem

/-! ## Removals -/

/-- A document that predicates select names its partition if they pin one. -/
theorem Partition.placed_of_require {m : EntityMetadata} {tree : PredicateTree}
    {partition : Option PartitionBinding} (h : require m tree = .ok partition) {document : Document}
    (hholds : tree.holds document) : ¬Unplaced m document := by
  obtain ⟨own, hown, -⟩ := ofDocument_of_require h hholds
  intro hunplaced
  cases hown.symm.trans hunplaced

namespace Engine

variable {σ : Type} {e : Engine σ} {memory : σ → MemoryStore} (h : e.store.Reads memory)
  {session later : Session σ} {found : List Document}

include h

theorem mem_of_gather {query : Query} (hrun : (e.gather query).runOn session = (.ok found, later)) :
    ∀ document ∈ found,
      document ∈ (memory session.store).matching query.collection query.tree :=
  Pages.mem_of_drain h (e.store.walkBound session.store) hrun

/-- **What a removal by method name collects lies in the partition that its predicates pin.** -/
theorem placed_of_collected {method : String} {call : Call}
    (hrun : (e.collected method call).runOn session = (.ok found, later)) :
    ∀ document ∈ found, ¬Partition.Unplaced e.metadata document := by
  obtain ⟨query, assembled, -, hrest⟩ := EngineM.runOn_bind_eq_ok_iff.mp hrun
  obtain ⟨partition, checked, hcheck, hgather⟩ := EngineM.runOn_bind_eq_ok_iff.mp hrest
  have hpartition := e.eq_ok_of_check hcheck
  intro document hmem
  have hholds := (List.mem_filter.mp (mem_of_gather h hgather document hmem)).2
  exact Partition.placed_of_require hpartition hholds

/-- What a removal of everything collects is stored. -/
theorem mem_of_deleteAll (hrun : (e.takes .deleteAll).runOn session = (.ok found, later)) :
    ∀ document ∈ found,
      document ∈ ((memory session.store).entries e.metadata.collection).map (·.2) := by
  obtain ⟨query, assembled, hassemble, hgather⟩ := EngineM.runOn_bind_eq_ok_iff.mp hrun
  have hcollection := e.collection_of_planned (e.planned_of_assemble hassemble)
  obtain ⟨_, hagain, hkept⟩ := e.runOn_assemble "deleteAll" {} session
  rw [hassemble] at hagain
  obtain ⟨-, rfl⟩ := Prod.mk.inj hagain
  intro document hmem
  have hmatching := mem_of_gather h hgather document hmem
  rw [hkept.store, hcollection] at hmatching
  exact List.mem_of_mem_filter hmatching

end Engine

end DerivedQuery
