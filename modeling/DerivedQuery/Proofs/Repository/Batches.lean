import DerivedQuery.Proofs.Engine.Faulty
import DerivedQuery.Proofs.Repository.Saved

/-!
# Batches that fail

Entities are saved or deleted one after the other, and so are the results of a removal by query removed. A
batch that fails on the way has done its work on the elements in front of the one that fails, and on no
element behind it. There is nothing else to be seen of it: the memory is what the answered calls have made
of it, and as many documents are gone as are counted (`Repository.batches_stop_at_failure`).

Saving and deleting one entity is one call at most (`Repository.attempts_save`,
`Repository.attempts_delete`).
-/

namespace DerivedQuery

/-! ## Work that is accounted for -/

namespace EngineM

variable {α β γ : Type} {work : EngineM FaultyState α} {next : α → EngineM FaultyState β}

/-- In whatever session the work is done, its exchanges account for what it leaves. -/
def Leads (work : EngineM FaultyState α) : Prop :=
  ∀ session : Session FaultyState, session.LeadsTo (work.runOn session).2

theorem leads_pure (a : α) : (pure a : EngineM FaultyState α).Leads := fun _ => .refl

theorem leads_ofExcept (outcome : Except QueryError α) :
    (ofExcept outcome : EngineM FaultyState α).Leads := by
  intro session
  rw [runOn_ofExcept]
  exact .refl

theorem Leads.bind (hwork : work.Leads) (hnext : ∀ a, (next a).Leads) : (work >>= next).Leads := by
  intro session
  have hfirst := hwork session
  rw [runOn_bind]
  rcases hrun : work.runOn session with ⟨error | a, later⟩
  · rw [hrun] at hfirst
    exact hfirst
  · rw [hrun] at hfirst
    exact hfirst.trans (hnext a later)

theorem leads_mapM {f : γ → EngineM FaultyState α} (hstep : ∀ element, (f element).Leads)
    (elements : List γ) : (elements.mapM f).Leads := by
  induction elements with
  | nil => exact leads_pure []
  | cons element rest ih =>
    rw [List.mapM_cons]
    exact (hstep element).bind fun _ => ih.bind fun _ => leads_pure _

theorem leads_forM {f : γ → EngineM FaultyState Unit} (hstep : ∀ element, (f element).Leads)
    (elements : List γ) : (elements.forM f).Leads := by
  induction elements with
  | nil => exact leads_pure ()
  | cons element rest ih =>
    rw [List.forM]
    exact (hstep element).bind fun _ => ih

end EngineM

namespace Repository

/-! ## One entity -/

section Attempts

variable {σ : Type} (r : Repository σ) {session : Session (σ × List Exchange)}

/-- The repository with its exchanges kept. -/
def witnessed : Repository (σ × List Exchange) := ⟨r.engine.witnessed, r.freshId⟩

/-- The call adds the document of an entity, with an identifier made up if it lacks one. -/
def Saves (entity : Json) (call : StoreCall) : Prop :=
  ∃ converted document number used, Document.ofEntity r.engine.metadata entity = .ok converted ∧
    Document.assignId r.engine.metadata (r.freshId number) converted = .ok (document, used) ∧
    r.engine.metadata.Adds document call

/-- The call removes the stored copy of an entity. -/
def Deletes (entity : Json) (call : StoreCall) : Prop :=
  ∃ document, Document.ofEntity r.engine.metadata entity = .ok document ∧
    r.engine.metadata.Removes document call

theorem attempts_save (entity : Json) :
    (r.witnessed.save entity).Attempts session (r.Saves entity) := by
  refine .behind_ofExcept (fun error => .refused error) ?_
  intro converted hconverted
  refine .behind (r.witnessed.store_assignId converted session) (fun error => .refused error) ?_
  intro document assigned hassign
  obtain ⟨used, hgiven⟩ := r.witnessed.exists_of_assignId_eq_ok hassign
  have hadds : (r.witnessed.engine.upsert document).Attempts assigned (r.Saves entity) :=
    (r.engine.attempts_upsert document).mono fun _ _ h =>
      h.imp fun _ hadds => ⟨converted, document, session.drawn, used, hconverted, hgiven, hadds⟩
  refine hadds.before fun _ later => ?_
  rw [EngineM.runOn_ofExcept]

theorem attempts_delete (entity : Json) :
    (r.witnessed.delete entity).Attempts session (r.Deletes entity) := by
  refine .behind_ofExcept (fun error => .refused error) ?_
  intro document hdocument
  exact (r.engine.attempts_deleteDocument document).mono fun _ _ h =>
    h.imp fun _ hremoves => ⟨document, hdocument, hremoves⟩

theorem Saves.spares {r : Repository σ} {entity : Json} {call : StoreCall} (h : r.Saves entity call) :
    call.Spares := by
  obtain ⟨_, document, _, _, -, -, hadds⟩ := h
  exact hadds.spares

theorem Saves.removes_eq_false {r : Repository σ} {entity : Json} {exchange : Exchange}
    (h : r.Saves entity exchange.call) : exchange.removes = false := by
  obtain ⟨_, document, _, _, -, -, hadds⟩ := h
  exact hadds.removes_eq_false

theorem Deletes.clearsAt {r : Repository σ} {entity : Json} {call : StoreCall}
    (h : r.Deletes entity call) : call.ClearsAt r.engine.metadata.collection := by
  obtain ⟨document, -, hremoves⟩ := h
  exact hremoves.clearsAt

end Attempts

/-! ## Over a memory behind faults -/

/-- A repository over a store in memory that fails some calls before they reach it. -/
def faulty (m : EntityMetadata) (config : EngineConfig) (freshId : Nat → String)
    (fault : Nat → Option StoreError) : Repository (MemoryStore × Nat) :=
  ⟨Engine.faulty m config fault, freshId⟩

variable {m : EntityMetadata} {config : EngineConfig} {freshId : Nat → String}
  {fault : Nat → Option StoreError}

theorem leads_assignId (r : Repository FaultyState) (document : Document) :
    (r.assignId document).Leads := by
  intro session
  rw [runOn_assignId]
  split
  · split
    · exact ⟨.of_eq rfl, .of_kept ⟨rfl, rfl⟩ (.nil rfl rfl rfl rfl) rfl (Nat.le_refl _)⟩
    · exact .refl
  · exact .refl

theorem leads_save (entity : Json) : ((faulty m config freshId fault).witnessed.save entity).Leads := by
  refine (EngineM.leads_ofExcept _).bind fun document => ?_
  refine (leads_assignId _ document).bind fun document => ?_
  refine EngineM.Leads.bind (fun session => Engine.leadsTo_serve session (.upsert document)) fun _ => ?_
  exact EngineM.leads_ofExcept _

theorem leads_delete (entity : Json) :
    ((faulty m config freshId fault).witnessed.delete entity).Leads := by
  refine (EngineM.leads_ofExcept _).bind fun document => ?_
  exact fun session => Engine.leadsTo_serve session (.deleteDocument document)

theorem leads_saveAll (entities : List Json) :
    ((faulty m config freshId fault).witnessed.saveAll entities).Leads :=
  EngineM.leads_mapM leads_save entities

theorem leads_deleteEntities (entities : List Json) :
    ((faulty m config freshId fault).witnessed.deleteEntities entities).Leads :=
  (EngineM.leads_forM leads_delete entities).bind fun _ => EngineM.leads_pure _

variable {session : Session FaultyState}

/-- Saving removes nothing. -/
theorem saveAll_made (hsound : session.memory.Sound) (entities : List Json) :
    let r := (faulty m config freshId fault).witnessed
    let run := (r.saveAll entities).runOn session
    ∃ asked, session.Made run.2 asked ∧ InOrder r.Saves entities asked (failure? run.1) ∧
      run.2.metrics.documentsDeleted = session.metrics.documentsDeleted := by
  intro r run
  obtain ⟨asked, htrace, horder⟩ : (r.saveAll entities).GoesThrough session r.Saves entities :=
    EngineM.goesThrough_mapM (fun entity _ => attempts_save _ entity) entities
  have hsaves := horder.exists_about
  have hmade : session.Made run.2 asked := by
    refine (leads_saveAll entities session).made hsound htrace fun exchange hmem => ?_
    obtain ⟨entity, -, h⟩ := hsaves exchange hmem
    exact h.spares
  have hnone : asked.countP Exchange.removes = 0 := by
    rw [List.countP_eq_zero]
    intro exchange hmem
    obtain ⟨entity, -, h⟩ := hsaves exchange hmem
    simp [h.removes_eq_false]
  refine ⟨asked, hmade, horder, ?_⟩
  rw [hmade.counted, hnone, Nat.add_zero]

theorem deleteEntities_made (hsound : session.memory.Sound) (entities : List Json) :
    let r := (faulty m config freshId fault).witnessed
    let run := (r.deleteEntities entities).runOn session
    ∃ asked, session.Made run.2 asked ∧ InOrder r.Deletes entities asked (failure? run.1) ∧
      session.Shrunk run.2 m.collection := by
  intro r run
  obtain ⟨asked, htrace, horder⟩ : (r.deleteEntities entities).GoesThrough session r.Deletes entities :=
    (EngineM.goesThrough_forM (fun entity _ => attempts_delete _ entity) entities).before
      fun _ _ => ⟨_, _, rfl, rfl⟩
  have hclears : ∀ exchange ∈ asked, exchange.call.ClearsAt m.collection := by
    intro exchange hmem
    obtain ⟨entity, -, h⟩ := horder.exists_about exchange hmem
    exact h.clearsAt
  have hmade : session.Made run.2 asked := (leads_deleteEntities entities session).made hsound htrace
    fun exchange hmem => (hclears exchange hmem).spares
  exact ⟨asked, hmade, horder, hmade.shrunk hsound hclears⟩

/-- **A batch that fails has done its work up to the element that fails, and nothing behind it.** Whatever
calls fail before they reach the memory, saved and deleted entities are gone through in the order in which
they are given, and removals by query go through the results of the query. The memory is what the answered
calls have made of it, in their order. As many documents are gone from the collection as have been counted.
A removal that fails while it searches leaves the memory as it was. -/
theorem batches_stop_at_failure (m : EntityMetadata) (config : EngineConfig) (freshId : Nat → String)
    (fault : Nat → Option StoreError) (session : Session FaultyState)
    (hreachable : session.memory.Reachable) (hfits : session.memory.Addressable) :
    let r := (faulty m config freshId fault).witnessed
    (∀ entities, let run := (r.saveAll entities).runOn session
      ∃ asked, session.Made run.2 asked ∧ InOrder r.Saves entities asked (failure? run.1) ∧
        run.2.metrics.documentsDeleted = session.metrics.documentsDeleted) ∧
    (∀ entities, let run := (r.deleteEntities entities).runOn session
      ∃ asked, session.Made run.2 asked ∧ InOrder r.Deletes entities asked (failure? run.1) ∧
        session.Shrunk run.2 m.collection) ∧
    (∀ method call, let run := (r.engine.delete method call).runOn session
      let planned := r.engine.planned session method call
      ∃ asked, session.Made run.2 asked ∧
        Engine.RemovesInOrder m session.memory planned asked (failure? run.1) ∧
        session.Shrunk run.2 m.collection ∧ (Searches asked → run.2.memory = session.memory)) ∧
    (let run := r.engine.deleteAll.runOn session
      let planned := r.engine.planned session "deleteAll" {}
      ∃ asked, session.Made run.2 asked ∧
        Engine.RemovesInOrder m session.memory planned asked (failure? run.1) ∧
        session.Shrunk run.2 m.collection ∧ (Searches asked → run.2.memory = session.memory)) := by
  intro r
  have hsound := hreachable.sound
  refine ⟨saveAll_made hsound, deleteEntities_made hsound, fun method call => ?_, ?_⟩
  · exact Engine.made_of_removesInOrder hsound (Engine.leadsTo_serve session (.delete method call))
      (Engine.asks_delete_inOrder hfits method call)
  · exact Engine.made_of_removesInOrder hsound (Engine.leadsTo_serve session .deleteAll)
      (Engine.asks_deleteAll_inOrder hfits)

/-- What a removal of all towns leaves whose third call fails. -/
def clearedTowns : Session FaultyState :=
  ((faulty Town.metadata {} (fun _ => "t") fun number =>
    if number = 3 then some (.unavailable "away") else none).witnessed.engine.deleteAll.runOn
      { store := ((Town.store, 0), []) }).2

/-- The three towns are found, the first one is removed, and the removal of the second one fails. -/
theorem batches_stop_at_failure_towns :
    clearedTowns.store.2.map (·.fault?) = [some (.unavailable "away"), none, none] ∧
      clearedTowns.memory.size "towns" = 2 ∧
      Session.Shrunk { store := ((Town.store, 0), []) } clearedTowns "towns" := by
  obtain ⟨-, -, -, _, -, -, hshrunk, -⟩ := batches_stop_at_failure Town.metadata {} (fun _ => "t")
    (fun number => if number = 3 then some (.unavailable "away") else none)
    { store := ((Town.store, 0), []) } Town.reachable_store
    (MemoryStore.addressable_of_total (by decide))
  exact ⟨by decide +kernel, by decide +kernel, hshrunk⟩

end Repository

end DerivedQuery
