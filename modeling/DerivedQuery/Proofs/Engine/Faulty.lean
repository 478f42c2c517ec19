import DerivedQuery.Proofs.Engine.InOrder
import DerivedQuery.Proofs.Engine.StoreFailure

/-!
# Engines over a memory behind faults

A store in memory may be made to fail any of its calls before they reach it (`DocumentStore.failing`). The
exchanges of an engine over it account for what becomes of the memory (`Session.LeadsTo`), whatever is
requested (`Engine.leadsTo_serve`).

A removal by query searches first. If this does not fail, it has found the results of its query
(`Engine.found_of_gather`), and it removes them in their order, up to the first failure
(`Engine.asks_delete_inOrder`, `Engine.asks_deleteAll_inOrder`).
-/

namespace DerivedQuery

/-- What work asks goes with how the answers show in its failure. -/
theorem EngineM.Asks.told {σ α : Type} {work : EngineM (σ × List Exchange) α}
    {session : Session (σ × List Exchange)} {R : List Exchange → Except QueryError α → Prop}
    (h : work.Asks session R) (hsurfaces : work.Surfaces session) :
    work.Asks session fun asked outcome => R asked outcome ∧ Told asked.reverse (failure? outcome) := by
  obtain ⟨asked, htrace, hasked⟩ := h
  obtain ⟨exchanges, htrace', htold⟩ := hsurfaces
  rw [List.append_cancel_right (htrace'.symm.trans htrace)] at htold
  exact ⟨asked, htrace, hasked, htold⟩

/-! ## A memory behind faults -/

/-- A memory, how many calls it was asked, and what they were answered. -/
abbrev FaultyState : Type := (MemoryStore × Nat) × List Exchange

/-- The memory of a session. -/
abbrev Session.memory (session : Session FaultyState) : MemoryStore := session.store.1.1

/-- An engine over a store in memory that fails some calls before they reach it. -/
def Engine.faulty (m : EntityMetadata) (config : EngineConfig) (fault : Nat → Option StoreError) :
    Engine (MemoryStore × Nat) :=
  { store := memoryStore.failing fault, metadata := m, config }

/-- The memory is what the answered calls have made of it, if it is sound and they spare it. -/
def FaultyState.Replayed (state later : FaultyState) : Prop :=
  ∃ asked, later.2 = asked.reverse ++ state.2 ∧
    (state.1.1.Sound → (∀ exchange ∈ asked, exchange.call.Spares) →
      state.1.1.Replays asked later.1.1)

namespace FaultyState

variable {state later last : FaultyState} {fault : Nat → Option StoreError}

theorem Replayed.of_eq (h : later = state) : state.Replayed later :=
  ⟨[], congrArg (·.2) h, fun _ _ => h ▸ .nil state.1.1⟩

theorem Replayed.trans (h : state.Replayed later) (h' : later.Replayed last) : state.Replayed last := by
  obtain ⟨asked, htrace, hreplays⟩ := h
  obtain ⟨more, htrace', hreplays'⟩ := h'
  refine ⟨asked ++ more, ?_, ?_⟩
  · rw [htrace', htrace, List.reverse_append, List.append_assoc]
  · intro hsound hspares
    obtain ⟨hasked, hmore⟩ := List.forall_mem_append.mp hspares
    have hfirst := hreplays hsound hasked
    exact hfirst.append (hreplays' (hfirst.sound hsound) hmore)

/-- **A call is answered from the memory, or it leaves the memory alone.** -/
theorem replayed_answer {call : StoreCall} {answer : Except StoreError call.Answer}
    (h : (memoryStore.failing fault).witnessed.answer call state = (answer, later)) :
    state.Replayed later := by
  refine ⟨[⟨call, answer⟩], DocumentStore.exchanges_answer h, fun hsound hspares => ?_⟩
  rw [DocumentStore.answer_witnessed] at h
  rcases memoryStore.answer_failing fault call state.1 with ⟨error, hfailed⟩ | hpassed
  · rw [hfailed] at h
    cases h
    exact .failed call error (.nil _)
  · rw [hpassed] at h
    cases h
    rcases hanswer : memoryStore.answer call state.1.1 with ⟨error | answer, next⟩
    · rw [List.forall_mem_singleton.mp hspares state.1.1 next error hsound hanswer]
      exact .failed call error (.nil _)
    · exact .answered hanswer (.nil next)

end FaultyState

/-- The exchanges of a session account for its memory and for its counters. -/
structure Session.LeadsTo (session later : Session FaultyState) : Prop where
  replayed : session.store.Replayed later.store
  accounted : session.Accounted later

namespace Session.LeadsTo

variable {session later last : Session FaultyState}

theorem refl : session.LeadsTo session := ⟨.of_eq rfl, .refl⟩

theorem trans (h : session.LeadsTo later) (h' : later.LeadsTo last) : session.LeadsTo last :=
  ⟨h.replayed.trans h'.replayed, h.accounted.trans h'.accounted⟩

end Session.LeadsTo

/-- The session behind some exchanges: the memory is what the answered calls have made of it, and their
removals have been counted. -/
structure Session.Made (session later : Session FaultyState) (asked : List Exchange) : Prop where
  trace : later.store.2 = asked.reverse ++ session.store.2
  memory : session.memory.Replays asked later.memory
  counted : later.metrics.documentsDeleted
    = session.metrics.documentsDeleted + asked.countP Exchange.removes

/-- As many documents are gone from a collection as have been counted, and none from other collections. -/
structure Session.Shrunk (session later : Session FaultyState) (name : String) : Prop where
  counted : later.metrics.documentsDeleted + later.memory.size name
    = session.metrics.documentsDeleted + session.memory.size name
  others : ∀ other, other ≠ name →
    later.memory.collection? other = session.memory.collection? other

section Made

variable {session later : Session FaultyState} {asked : List Exchange} {name : String}

theorem Session.LeadsTo.made (h : session.LeadsTo later) (hsound : session.memory.Sound)
    (htrace : later.store.2 = asked.reverse ++ session.store.2)
    (hspares : ∀ exchange ∈ asked, exchange.call.Spares) : session.Made later asked := by
  obtain ⟨own, hown, hreplays⟩ := h.replayed
  obtain ⟨exchanges, hexchanges, hcounts⟩ := h.accounted.exchanges
  have hasked : own = asked :=
    List.reverse_injective (List.append_cancel_right (hown.symm.trans htrace))
  have hreversed : exchanges = asked.reverse :=
    List.append_cancel_right (hexchanges.symm.trans htrace)
  rw [hasked] at hreplays
  refine ⟨htrace, hreplays hsound hspares, ?_⟩
  rw [hcounts.removals, hreversed, List.countP_reverse]

theorem Session.Made.shrunk (h : session.Made later asked) (hsound : session.memory.Sound)
    (hclears : ∀ exchange ∈ asked, exchange.call.ClearsAt name) : session.Shrunk later name := by
  obtain ⟨hsize, hothers⟩ := h.memory.shrinks hsound hclears
  refine ⟨?_, hothers⟩
  rw [h.counted, ← hsize]
  omega

end Made

namespace Engine

variable {m : EntityMetadata} {config : EngineConfig} {fault : Nat → Option StoreError}
  {session later : Session FaultyState} {failure : Option QueryError} {unplaced : Prop}

theorem PlanStep.replayed (h : (faulty m config fault).witnessed.PlanStep session failure later) :
    FaultyState.Replayed session.store later.store :=
  .of_eq h.onlyPlanned.store

theorem StoreStep.replayed
    (h : (faulty m config fault).witnessed.StoreStep unplaced session failure later) :
    FaultyState.Replayed session.store later.store := by
  cases h with
  | @answered call answer state h =>
    have hstore : (session.answered state call answer).store = state := by cases call <;> rfl
    rw [hstore]
    exact FaultyState.replayed_answer h
  | failed h => exact FaultyState.replayed_answer h
  | noted | gaveUp | refused => exact .of_eq rfl

theorem leadsTo_serve (session : Session FaultyState) (request : Request) :
    session.LeadsTo (((faulty m config fault).witnessed.serve request).runOn session).2 :=
  (faulty m config fault).witnessed.lift_serve (fun _ => .refl) .trans
    (fun h => ⟨h.replayed, h.accounted⟩) (fun h => ⟨h.replayed, h.accounted⟩) session request

/-! ## Removals by query -/

variable {query : Query} {found : List Document}

/-- **A search that does not fail has found the results of its query.** -/
theorem found_of_gather (hfits : session.memory.Addressable)
    (hrun : ((faulty m config fault).witnessed.gather query).runOn session = (.ok found, later)) :
    found = session.memory.results query := by
  let first : Query := query.withPage (query.page.restart query.page.size)
  let inside : Session MemoryStore := session.through (·.1.1)
  have hpasses : ∀ {call : StoreCall} {answer : call.Answer} {state next : FaultyState},
      (memoryStore.failing fault).witnessed.answer call state = (.ok answer, next) →
      (memoryStore.failing fault).witnessed.Passes memoryStore (·.1.1) call state := by
    intro call answer state next h
    exact DocumentStore.passes_failing (Prod.ext (Prod.mk.inj h).1 rfl)
  have hinside : ((Pages.ofQuery first).collect memoryStore .ok).runOn inside
      = (.ok found, later.through (·.1.1)) := Pages.runOn_drain_through hpasses hrun
  have hpos : 0 < first.page.size := Nat.lt_of_lt_of_le Nat.one_pos (Nat.le_max_right _ _)
  obtain ⟨_, hcollect, -⟩ := Pages.runOn_collect inside hpos (hfits.length_results first) rfl
  have hfound := (Prod.mk.inj (hinside.symm.trans hcollect)).1
  rw [List.drop_zero] at hfound
  exact Except.ok.inj hfound

/-- What a removal by query asks that starts with this memory, and the failure that it ends with. It
searches, and if all searches are answered, it goes through the results of its query in their order. -/
inductive RemovesInOrder (m : EntityMetadata) (memory : MemoryStore) (planned : Except QueryError Query) :
    List Exchange → Option QueryError → Prop where
  | searching {asked : List Exchange} (h : Searches asked) (error : QueryError) :
      RemovesInOrder m memory planned asked (some error)
  | removing {query : Query} {searches removals : List Exchange} {failure : Option QueryError}
      (hplanned : planned = .ok query) (hsearches : Searches searches)
      (hanswered : ∀ exchange ∈ searches, exchange.fault? = none)
      (h : InOrder m.Removes (memory.results query) removals failure) :
      RemovesInOrder m memory planned (searches ++ removals) failure

/-- All calls search or remove. -/
theorem RemovesInOrder.clearsAt {memory : MemoryStore} {planned : Except QueryError Query}
    {asked : List Exchange} (h : RemovesInOrder m memory planned asked failure) :
    ∀ exchange ∈ asked, exchange.call.ClearsAt m.collection := by
  cases h with
  | searching h => exact fun exchange hmem => .inl (h exchange hmem)
  | removing _ hsearches _ h =>
    refine List.forall_mem_append.mpr ⟨fun exchange hmem => .inl (hsearches exchange hmem), ?_⟩
    intro exchange hmem
    obtain ⟨document, -, hremoves⟩ := h.exists_about exchange hmem
    exact hremoves.clearsAt

variable {planned : Except QueryError Query}

/-- The planning in front of a removal leaves the memory with the results alone. -/
theorem asks_deleteMatches_inOrder {before : Session FaultyState}
    (hfits : before.memory.Addressable) (hstore : session.store = before.store)
    (hplanned : planned = .ok query) (hcollection : query.collection = m.collection) :
    ((faulty m config fault).witnessed.deleteMatches query).Asks session fun asked outcome =>
      RemovesInOrder m before.memory planned asked (failure? outcome) := by
  rw [Session.memory, ← hstore] at hfits ⊢
  have hgathers : ((faulty m config fault).witnessed.gather query).Finds session id :=
    Pages.finds_collect (memoryStore.failing fault) _ session
  refine (hgathers.told ((faulty m config fault).surfaces_collect _)).bind
    (fun _ error h => .searching h.1.1 error) ?_
  rintro searches found gathered hgather ⟨hfound, htold⟩
  have hanswered : ∀ exchange ∈ searches, exchange.fault? = none := fun exchange hmem =>
    htold.all_answered exchange (List.mem_reverse.mpr hmem)
  rw [hcollection, found_of_gather hfits hgather]
  refine EngineM.Asks.mono (EngineM.GoesThrough.before
    ((faulty m config fault).goesThrough_deleteEach _) fun _ _ => ⟨_, _, rfl, rfl⟩) ?_
  exact fun removals _ h => .removing hplanned hfound.1 hanswered h

/-- **A removal by method name removes the results of its query in their order.** -/
theorem asks_delete_inOrder (hfits : session.memory.Addressable) (method : String) (call : Call) :
    let e := (faulty m config fault).witnessed
    (e.delete method call).Asks session fun asked outcome =>
      RemovesInOrder m session.memory (e.planned session method call) asked (failure? outcome) := by
  intro e
  have hassembles := e.plans_assembleFor method call session .delete
  refine asks_of_plans hassembles (fun error => .searching .nil error) ?_
  intro query assembled hassemble
  have hassembled := (onlyPlanned_of_chain (hassembles.chain hassemble)).store
  obtain ⟨_, hagain, -⟩ := e.runOn_assembleFor .delete method call session
  rw [hassemble] at hagain
  obtain ⟨hplanned, -⟩ := e.plannedFor_eq_ok_iff.mp (Prod.mk.inj hagain).1.symm
  have hchecks := e.plans_check method assembled (Partition.onlyRefuses_require m query.tree)
  refine asks_of_plans hchecks (fun error => .searching .nil error) ?_
  intro pinned checked hcheck
  have hchecked := (onlyPlanned_of_chain (hchecks.chain hcheck)).store
  exact asks_deleteMatches_inOrder hfits (hchecked.trans hassembled) hplanned
    (e.collection_of_planned hplanned)

/-- **A removal of everything removes the results of its query in their order.** -/
theorem asks_deleteAll_inOrder (hfits : session.memory.Addressable) :
    let e := (faulty m config fault).witnessed
    e.deleteAll.Asks session fun asked outcome =>
      RemovesInOrder m session.memory (e.planned session "deleteAll" {}) asked
        (failure? outcome) := by
  intro e
  have hassembles := e.plans_assemble "deleteAll" {} session
  refine asks_of_plans hassembles (fun error => .searching .nil error) ?_
  intro query assembled hassemble
  have hplanned := e.planned_of_assemble hassemble
  exact asks_deleteMatches_inOrder hfits (onlyPlanned_of_chain (hassembles.chain hassemble)).store
    hplanned (e.collection_of_planned hplanned)

/-- **A removal by query makes its collection smaller by what it counts, and a search that fails leaves the
memory alone.** -/
theorem made_of_removesInOrder {α : Type} {work : EngineM FaultyState α}
    (hsound : session.memory.Sound) (hleads : session.LeadsTo (work.runOn session).2)
    (hasks : work.Asks session fun asked outcome =>
      RemovesInOrder m session.memory planned asked (failure? outcome)) :
    ∃ asked, session.Made (work.runOn session).2 asked ∧
      RemovesInOrder m session.memory planned asked (failure? (work.runOn session).1) ∧
      session.Shrunk (work.runOn session).2 m.collection ∧
      (Searches asked → (work.runOn session).2.memory = session.memory) := by
  obtain ⟨asked, htrace, horder⟩ := hasks
  have hmade : session.Made (work.runOn session).2 asked :=
    hleads.made hsound htrace fun exchange hmem => (horder.clearsAt exchange hmem).spares
  exact ⟨asked, hmade, horder, hmade.shrunk hsound horder.clearsAt, hmade.memory.of_searches⟩

end Engine

end DerivedQuery
