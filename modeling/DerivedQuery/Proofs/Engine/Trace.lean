import DerivedQuery.Proofs.Engine.Planning
import DerivedQuery.Proofs.Plan.Refusal

/-!
# What an engine does, step by step

The work of an engine is a chain of steps, of which all but the last succeed (`Chain`). There are two
kinds of them. A step of planning parses, logs or refuses, and leaves the store alone
(`Engine.PlanStep`). A step behind planning asks the store, logs or gives up, and refuses nothing but a
document that does not name its partition (`Engine.StoreStep`).

Each function of the engine is shown to be a chain of such steps once. What holds of every step, and can
be put together, then holds of all of them (`Chain.lift`), and no function is opened again for it.
-/

namespace DerivedQuery

/-- The failure of an outcome. -/
def failure? {ε α : Type} : Except ε α → Option ε
  | .ok _ => none
  | .error error => some error

/-- Steps one behind the other. A step that fails is the last one. -/
inductive Chain {S ε : Type} (Step : S → Option ε → S → Prop) : S → Option ε → S → Prop where
  | done (s : S) : Chain Step s none s
  | step {s t u : S} {failure : Option ε} (h : Step s none t) (rest : Chain Step t failure u) :
      Chain Step s failure u
  | stop {s t : S} {error : ε} (h : Step s (some error) t) : Chain Step s (some error) t

namespace Chain

variable {S ε : Type} {Step : S → Option ε → S → Prop} {s t u : S} {failure : Option ε}

theorem one (h : Step s failure t) : Chain Step s failure t := by
  cases failure with
  | none => exact .step h (.done t)
  | some error => exact .stop h

theorem append (h : Chain Step s none t) (h' : Chain Step t failure u) : Chain Step s failure u := by
  generalize hnone : none = first at h
  induction h with
  | done s => exact h'
  | step hstep _ ih => exact .step hstep (ih h' hnone)
  | stop _ => cases hnone

/-- **What holds of each step, and can be put together, holds of a chain.** -/
theorem lift {R : S → Option ε → S → Prop} (hdone : ∀ s, R s none s)
    (hbehind : ∀ {s t u failure}, R s none t → R t failure u → R s failure u)
    (hstep : ∀ {s t failure}, Step s failure t → R s failure t) (h : Chain Step s failure t) :
    R s failure t := by
  induction h with
  | done s => exact hdone s
  | step h _ ih => exact hbehind (hstep h) ih
  | stop h => exact hstep h

end Chain

namespace EngineM

variable {σ α β : Type} {Step : Session σ → Option QueryError → Session σ → Prop}
  {session : Session σ}

/-- The work is a chain of steps. -/
def Runs (Step : Session σ → Option QueryError → Session σ → Prop) (work : EngineM σ α)
    (session : Session σ) : Prop :=
  Chain Step session (failure? (work.runOn session).1) (work.runOn session).2

theorem Runs.of_eq {work : EngineM σ α} {outcome : Except QueryError α} {later : Session σ}
    (h : work.runOn session = (outcome, later)) (hchain : Chain Step session (failure? outcome) later) :
    work.Runs Step session := by
  rw [Runs, h]
  exact hchain

theorem Runs.chain {work : EngineM σ α} {outcome : Except QueryError α} {later : Session σ}
    (hruns : work.Runs Step session) (h : work.runOn session = (outcome, later)) :
    Chain Step session (failure? outcome) later := by
  rw [Runs, h] at hruns
  exact hruns

theorem Runs.bind {work : EngineM σ α} {next : α → EngineM σ β} (hwork : work.Runs Step session)
    (hnext : ∀ a later, work.runOn session = (.ok a, later) → (next a).Runs Step later) :
    (work >>= next).Runs Step session := by
  rcases hrun : work.runOn session with ⟨error | a, later⟩
  · have hbind : (work >>= next).runOn session = (.error error, later) := by rw [runOn_bind, hrun]
    exact .of_eq hbind (hwork.chain hrun)
  · have hbind : (work >>= next).runOn session = (next a).runOn later := by rw [runOn_bind, hrun]
    exact .of_eq hbind ((hwork.chain hrun).append (hnext a later hrun))

theorem runs_pure (a : α) : (pure a : EngineM σ α).Runs Step session := .done session

end EngineM

/-! ## Planning -/

namespace Engine

variable {σ α : Type} (e : Engine σ)

/-- The session in which a call has been refused. -/
def refusing (session : Session σ) (method : String) (error : QueryError) : Session σ :=
  { session with
    metrics := { session.metrics with queriesRejected := session.metrics.queriesRejected + 1 }
    journal := ⟨.queryRejected, [("code", error.code), ("entity", e.metadata.typeName),
      ("method", method), ("reason", error.message)]⟩ :: session.journal }

/-- A step of planning. -/
inductive PlanStep : Session σ → Option QueryError → Session σ → Prop where
  | parsed {session : Session σ} {method : String} {operation : Operation}
      (hnew : session.prepared.lookup method = none)
      (hparse : Method.parse e.metadata method = .ok operation) :
      PlanStep session none (e.remembering session method operation)
  | assembled (session : Session σ) (fields : List (String × String)) :
      PlanStep session none
        { session with journal := ⟨.queryAssembled, fields⟩ :: session.journal }
  | refused (session : Session σ) (method : String) {error : QueryError} (h : error.isValidation) :
      PlanStep session (some error) (e.refusing session method error)

/-- The work is planning. -/
abbrev Plans (work : EngineM σ α) (session : Session σ) : Prop := work.Runs e.PlanStep session

variable (method : String) (call : Call) (session : Session σ)

theorem plans_reject {error : QueryError} (h : error.isValidation) :
    e.Plans (e.reject method error : EngineM σ α) session :=
  .of_eq (e.runOn_reject method error session) (.one (.refused session method h))

theorem plans_check {outcome : Except QueryError α} (h : OnlyRefuses outcome) :
    e.Plans (e.check method outcome) session := by
  cases outcome with
  | ok a => exact EngineM.runs_pure a
  | error error => exact e.plans_reject method session (h error rfl)

theorem plans_prepare : e.Plans (e.prepare method) session := by
  have hprepare := e.runOn_prepare method session
  cases hknown : session.prepared.lookup method with
  | some operation =>
    rw [hknown] at hprepare
    exact .of_eq hprepare (.done session)
  | none =>
    cases hparse : Method.parse e.metadata method with
    | error error =>
      rw [hknown, hparse] at hprepare
      exact .of_eq hprepare
        (.one (.refused session method (Method.onlyRefuses_parse e.metadata method error hparse)))
    | ok operation =>
      rw [hknown, hparse] at hprepare
      exact .of_eq hprepare (.one (.parsed hknown hparse))

theorem plans_assembled (fields : List (String × String)) :
    e.Plans (EngineM.note .queryAssembled fields) session :=
  .of_eq (EngineM.runOn_note _ _ session) (.one (.assembled session fields))

theorem plans_assemble : e.Plans (e.assemble method call) session := by
  refine (e.plans_prepare method session).bind ?_
  intro operation prepared _
  refine (e.plans_check method prepared (e.onlyRefuses_plan operation call)).bind ?_
  intro query checked _
  refine (e.plans_assembled checked _).bind ?_
  intro _ _ _
  exact EngineM.runs_pure query

theorem plans_assembleFor (action : Action) : e.Plans (e.assembleFor action method call) session := by
  refine (e.plans_assemble method call session).bind ?_
  intro query assembled _
  by_cases haction : query.action = action
  · simp only [haction, ↓reduceIte]
    exact EngineM.runs_pure query
  · simp only [haction, ↓reduceIte]
    exact e.plans_reject method assembled rfl

theorem plans_pointPartition (value : Option Json) :
    e.Plans (e.pointPartition method value) session :=
  e.plans_check method session (Partition.onlyRefuses_require e.metadata _)

end Engine

/-! ## Behind planning -/

/-- The session in which the store has answered a call. -/
def Session.answered {σ : Type} (session : Session σ) (store : σ) :
    (call : StoreCall) → call.Answer → Session σ
  | .execute collection _, (batch : Batch) => { session with
      store
      metrics := { session.metrics with
        pagesFetched := session.metrics.pagesFetched + 1
        documentsReturned := session.metrics.documentsReturned + batch.documents.length }
      journal := ⟨.pageFetched, [("collection", collection),
        ("items", toString batch.documents.length),
        ("has_next", EngineM.truth (!batch.continuation.isNone))]⟩ :: session.journal }
  | .pointRead collection id _, (found : Option Document) => { session with
      store
      journal := ⟨.pointRead, [("collection", collection), ("id", id),
        ("found", EngineM.truth found.isSome)]⟩ :: session.journal }
  | .pointDelete collection id _, (deleted : Bool) => { session with
      store
      metrics := { session.metrics with
        documentsDeleted := session.metrics.documentsDeleted + if deleted then 1 else 0 }
      journal := ⟨.pointDelete, [("collection", collection), ("id", id),
        ("deleted", EngineM.truth deleted)]⟩ :: session.journal }
  | .count .., _ | .upsert .., _ => { session with store }

/-- The session in which the store has failed to answer a call. -/
def Session.failed {σ : Type} (session : Session σ) (store : σ) (call : StoreCall) (error : StoreError) :
    Session σ :=
  { session with
    store
    metrics := { session.metrics with storeErrors := session.metrics.storeErrors + 1 }
    journal := ⟨.storeError, [("collection", call.collection), ("operation", call.name),
      ("code", error.code), ("reason", error.message)]⟩ :: session.journal }

namespace Engine

variable {σ α : Type} (e : Engine σ) (unplaced : Prop)

/-- A step behind planning. If `unplaced` holds, there may be documents that do not name their
partition. -/
inductive StoreStep : Session σ → Option QueryError → Session σ → Prop where
  | answered {session : Session σ} {call : StoreCall} {answer : call.Answer} {store : σ}
      (h : e.store.answer call session.store = (.ok answer, store)) :
      StoreStep session none (session.answered store call answer)
  | failed {session : Session σ} {call : StoreCall} {error : StoreError} {store : σ}
      (h : e.store.answer call session.store = (.error error, store)) :
      StoreStep session (some (.storeAccess error)) (session.failed store call error)
  | noted (session : Session σ) {event : Event} (fields : List (String × String))
      (h : event = .pagesExhausted ∨ event = .deleteByQuery) :
      StoreStep session none { session with journal := ⟨event, fields⟩ :: session.journal }
  | gaveUp (session : Session σ) {error : QueryError} (h : error.isValidation = false) :
      StoreStep session (some error) session
  | refused (session : Session σ) (h : unplaced) :
      StoreStep session (some (Partition.required e.metadata)) session

/-- The work is done behind planning. -/
abbrev Serves (work : EngineM σ α) (session : Session σ) : Prop :=
  work.Runs (e.StoreStep unplaced) session

variable {session : Session σ}

theorem serves_throw {error : QueryError} (h : error.isValidation = false) :
    e.Serves unplaced (throw error : EngineM σ α) session :=
  .of_eq (EngineM.runOn_throw error session) (.one (.gaveUp session h))

/-- Work that asks the store once, and counts and logs what comes of it, is one step. -/
theorem serves_of_answer {work : EngineM σ α} (call : StoreCall) (value : call.Answer → α)
    (h : work.runOn session =
      match e.store.answer call session.store with
      | (.ok answer, store) => (.ok (value answer), session.answered store call answer)
      | (.error error, store) => (.error (.storeAccess error), session.failed store call error)) :
    e.Serves unplaced work session := by
  rcases hanswer : e.store.answer call session.store with ⟨error | answer, store⟩
  · rw [hanswer] at h
    exact .of_eq h (.stop (.failed hanswer))
  · rw [hanswer] at h
    exact .of_eq h (.one (.answered hanswer))

theorem serves_fetchPage (query : Query) :
    e.Serves unplaced (EngineM.fetchPage e.store query) session := by
  refine e.serves_of_answer unplaced (.execute query.collection query)
    (fun batch : Batch => Page.ofState query.page batch.documents batch.continuation) ?_
  rw [EngineM.runOn_fetchPage]
  rcases e.store.answer (.execute query.collection query) session.store with ⟨error | batch, store⟩
  · rfl
  · rfl

theorem serves_probe (query : Query) : e.Serves unplaced (EngineM.probe e.store query) session := by
  refine (e.serves_fetchPage unplaced _).bind ?_
  intro page _ _
  exact EngineM.runs_pure (!page.items.isEmpty)

theorem serves_countMatches (query : Query) :
    e.Serves unplaced (EngineM.countMatches e.store query) session := by
  refine e.serves_of_answer unplaced (.count query.collection (some query)) id ?_
  rw [EngineM.countMatches, EngineM.runOn_ask]
  rfl

theorem serves_countAll (collection : String) :
    e.Serves unplaced (EngineM.countAll e.store collection) session := by
  refine e.serves_of_answer unplaced (.count collection none) id ?_
  rw [EngineM.countAll, EngineM.runOn_ask]
  rfl

theorem serves_pointRead (collection id : String) (partition : Option PartitionBinding) :
    e.Serves unplaced (EngineM.pointRead e.store collection id partition) session := by
  refine e.serves_of_answer unplaced (.pointRead collection id partition)
    (fun found : Option Document => found) ?_
  rw [EngineM.pointRead, EngineM.runOn_bind, EngineM.runOn_ask]
  rcases e.store.answer (.pointRead collection id partition) session.store with
    ⟨error | found, store⟩
  · rfl
  · rfl

theorem serves_pointDelete (collection id : String) (partition : Option PartitionBinding) :
    e.Serves unplaced (EngineM.pointDelete e.store collection id partition) session := by
  refine e.serves_of_answer unplaced (.pointDelete collection id partition)
    (fun deleted : Bool => deleted) ?_
  rw [EngineM.pointDelete, EngineM.runOn_bind, EngineM.runOn_ask]
  rcases e.store.answer (.pointDelete collection id partition) session.store with
    ⟨error | deleted, store⟩
  · rfl
  · cases deleted <;> rfl

theorem serves_upsert (collection : String) (document : Document)
    (partition : Option PartitionBinding) :
    e.Serves unplaced (EngineM.upsert e.store collection document partition) session := by
  refine e.serves_of_answer unplaced (.upsert collection document partition) id ?_
  rw [EngineM.upsert, EngineM.runOn_ask]
  rfl

/-! ### Walks -/

/-- A step of a walk asks for one page, and logs it if it is the last one. -/
theorem chain_next (pages : Pages) {outcome : Option (Except QueryError (Page Document))}
    {behind : Pages} {later : Session σ}
    (h : (pages.next e.store).run session = ((outcome, behind), later)) :
    Chain (e.StoreStep unplaced) session (outcome.bind failure?) later := by
  rw [Pages.run_next] at h
  cases hstate : pages.cursor.nextPage pages.query.page with
  | none =>
    rw [hstate] at h
    cases h
    exact .done session
  | some state =>
    rw [hstate] at h
    have hfetch : e.Serves unplaced (EngineM.fetchPage e.store (pages.query.withPage state)) session :=
      e.serves_fetchPage unplaced _
    rcases hrun : (EngineM.fetchPage e.store (pages.query.withPage state)).runOn session with
      ⟨error | page, fetched⟩
    · simp only [hrun] at h
      cases h
      exact hfetch.chain hrun
    · simp only [hrun] at h
      cases h
      refine (hfetch.chain hrun).append ?_
      unfold Pages.noted
      split
      · exact .one (.noted fetched _ (.inl rfl))
      · exact .done fetched

theorem serves_drain (bound : Nat) (pages : Pages) :
    e.Serves unplaced (pages.drain e.store .ok bound) session := by
  induction bound generalizing pages session with
  | zero =>
    rw [Pages.drain]
    split
    · exact EngineM.runs_pure _
    · exact e.serves_throw unplaced rfl
  | succ bound ih =>
    rcases hnext : (pages.next e.store).run session with ⟨⟨outcome, behind⟩, later⟩
    have hchain := e.chain_next unplaced pages hnext
    have hdrain := Pages.runOn_drain_ok_succ e.store bound pages session
    rw [hnext] at hdrain
    rcases outcome with - | error | page
    · exact .of_eq hdrain hchain
    · exact .of_eq hdrain hchain
    · have hrest : e.Serves unplaced (do
          let rest ← Pages.drain e.store .ok bound behind
          return page.items ++ rest : EngineM σ (List Document)) later := by
        refine (ih behind).bind ?_
        intro rest _ _
        exact EngineM.runs_pure (page.items ++ rest)
      exact .of_eq hdrain (hchain.append hrest)

theorem serves_collect (pages : Pages) : e.Serves unplaced (pages.collect e.store .ok) session :=
  e.serves_drain unplaced (e.store.walkBound session.store) pages

/-! ### Removals -/

theorem serves_documentId (document : Document) :
    e.Serves unplaced (EngineM.ofExcept (Document.id e.metadata document)) session := by
  cases hid : Document.id e.metadata document with
  | error error => exact e.serves_throw unplaced (Document.isValidation_of_id hid)
  | ok id => exact EngineM.runs_pure id

theorem serves_ofDocument {document : Document}
    (h : Partition.Unplaced e.metadata document → unplaced) :
    e.Serves unplaced (EngineM.ofExcept (Partition.ofDocument e.metadata document)) session := by
  rcases Partition.ofDocument_eq_ok_or_unplaced e.metadata document with ⟨partition, hpartition⟩ | hnone
  · rw [hpartition]
    exact EngineM.runs_pure partition
  · refine .of_eq (EngineM.runOn_ofExcept _ session) ?_
    rw [hnone]
    exact .one (.refused session (h hnone))

theorem serves_deleteFound (collection : String) {document : Document}
    (h : Partition.Unplaced e.metadata document → unplaced) :
    e.Serves unplaced (e.deleteFound collection document) session := by
  refine (e.serves_documentId unplaced document).bind ?_
  intro id _ _
  refine (e.serves_ofDocument unplaced h).bind ?_
  intro partition _ _
  exact e.serves_pointDelete unplaced collection id partition

theorem serves_deleteEach (collection : String) {documents : List Document}
    (h : ∀ document ∈ documents, Partition.Unplaced e.metadata document → unplaced) :
    e.Serves unplaced (e.deleteEach collection documents) session := by
  induction documents generalizing session with
  | nil => exact EngineM.runs_pure 0
  | cons document rest ih =>
    have hfirst := h document List.mem_cons_self
    have hothers : ∀ other ∈ rest, Partition.Unplaced e.metadata other → unplaced := by
      intro other hother
      exact h other (List.mem_cons_of_mem document hother)
    refine (e.serves_deleteFound unplaced collection hfirst).bind ?_
    intro deleted _ _
    refine (ih hothers).bind ?_
    intro number _ _
    exact EngineM.runs_pure ((if deleted then 1 else 0) + number)

/-- The documents that a removal by query collects. -/
def gather (query : Query) : EngineM σ (List Document) :=
  (Pages.ofQuery (query.withPage (query.page.restart query.page.size))).collect e.store .ok

theorem serves_deleteByQuery (session : Session σ) (fields : List (String × String)) :
    e.Serves unplaced (EngineM.note .deleteByQuery fields) session :=
  .of_eq (EngineM.runOn_note _ _ session) (.one (.noted session fields (.inr rfl)))

/-- A removal by query refuses nothing if all documents that it collects name their partitions. -/
theorem serves_deleteMatches {query : Query}
    (h : ∀ found later, (e.gather query).runOn session = (.ok found, later) →
      ∀ document ∈ found, Partition.Unplaced e.metadata document → unplaced) :
    e.Serves unplaced (e.deleteMatches query) session := by
  have hgathers : e.Serves unplaced (e.gather query) session := e.serves_collect unplaced _
  refine hgathers.bind ?_
  intro found gathered hgather
  refine (e.serves_deleteEach unplaced query.collection (h found gathered hgather)).bind ?_
  intro number deleted _
  refine (e.serves_deleteByQuery unplaced deleted _).bind ?_
  intro _ _ _
  exact EngineM.runs_pure number

theorem serves_deleteOne (id : String) (partition : Option PartitionBinding) :
    e.Serves unplaced (e.deleteOne id partition) session := by
  refine (e.serves_pointDelete unplaced _ _ _).bind ?_
  intro deleted _ _
  cases deleted with
  | true => exact EngineM.runs_pure ()
  | false => exact e.serves_throw unplaced rfl

end Engine

end DerivedQuery
