import DerivedQuery.Proofs.Engine.Trace

/-!
# Requests to an engine

All that an engine can be asked, as data (`Request`), so that a statement about every request is one
statement. A request is planned first, and the store is asked only if planning does not refuse it
(`Engine.Course`); each request is shown to take this course once (`Engine.course_serve`).

Some requests look into documents behind planning, to name the partition of each
(`Engine.takes`). This is the only place where a request is refused late.
-/

namespace DerivedQuery

/-- The error of a call that is rejected. -/
def ExplainPlan.rejection? : ExplainPlan → Option QueryError
  | accepted .. => none
  | rejected error => some error

/-- What an engine can be asked. -/
inductive Request where
  | prepare (method : String)
  | assemble (method : String) (call : Call)
  | render (method : String) (call : Call)
  | explain (method : String) (call : Call)
  | find (method : String) (call : Call)
  | findAll (method : String) (call : Call)
  | hasMatch (method : String) (call : Call)
  | count (method : String) (call : Call)
  | delete (method : String) (call : Call)
  | invoke (method : String) (call : Call)
  | pointRead (id : String) (partition : Option Json)
  | pointDelete (id : String) (partition : Option Json)
  | deleteDocument (document : Document)
  | findByIds (ids : List String)
  | upsert (document : Document)
  | countAll
  | deleteAll

namespace Request

/-- The kind of answer to a request. -/
@[reducible] def Answer : Request → Type
  | prepare _ => Operation
  | assemble .. => Query
  | render .. => SqlQuery
  | explain .. => ExplainPlan
  | find .. => Page Document
  | findAll .. => Pages
  | hasMatch .. => Bool
  | count .. | delete .. | countAll | deleteAll => Nat
  | invoke .. => Outcome Document
  | pointRead .. => Option Document
  | pointDelete .. | deleteDocument _ | upsert _ => Unit
  | findByIds _ => List Document

/-- Why a request fails. A plan tells it without failing. -/
def fault? : (request : Request) → Except QueryError request.Answer → Option QueryError
  | explain .., .ok (plan : ExplainPlan) => plan.rejection?
  | _, outcome => failure? outcome

/-- The error with which a request is refused. A plan that is rejected is a refusal. -/
def refusal? : (request : Request) → Except QueryError request.Answer → Option QueryError
  | explain .., .ok (plan : ExplainPlan) => plan.rejection?
  | _, outcome => (failure? outcome).filter (·.isValidation)

/-- The request is for a plan and nothing else. -/
def isPlanning : Request → Bool
  | prepare _ | assemble .. | render .. | explain .. => true
  | _ => false

variable {request : Request} {outcome : Except QueryError request.Answer}

/-- A request that fails with a validation error is refused, and so is a plan that is rejected with
one. -/
theorem refusal?_of_isValidation (h : ∀ error ∈ request.fault? outcome, error.isValidation) :
    request.refusal? outcome = request.fault? outcome := by
  have hfilter : ∀ fault : Option QueryError, (∀ error ∈ fault, error.isValidation) →
      fault.filter (·.isValidation) = fault := by
    intro fault hfault
    cases fault with
    | none => rfl
    | some error => rw [Option.filter_some, if_pos (hfault error rfl)]
  cases request with
  | explain method call =>
    cases outcome with
    | ok plan => rfl
    | error error => exact hfilter _ h
  | _ => exact hfilter _ h

theorem refusal?_of_not_planning (h : request.isPlanning = false) :
    request.refusal? outcome = (request.fault? outcome).filter (·.isValidation) := by
  cases request with
  | explain => cases h
  | _ => rfl

theorem isValidation_of_refusal? (h : request.isPlanning = false) {error : QueryError}
    (hrefused : request.refusal? outcome = some error) : error.isValidation := by
  rw [refusal?_of_not_planning h] at hrefused
  exact (Option.filter_eq_some_iff.mp hrefused).2

theorem fault?_of_not_planning (h : request.isPlanning = false) :
    request.fault? outcome = failure? outcome := by
  cases request with
  | explain => cases h
  | _ => rfl

end Request

/-- Work that is caught goes on with the handler in the session that it leaves. -/
theorem EngineM.runOn_tryCatch {σ α : Type} (work : EngineM σ α) (handler : QueryError → EngineM σ α)
    (session : Session σ) :
    (tryCatch work handler : EngineM σ α).runOn session =
      match work.runOn session with
      | (.ok a, later) => (.ok a, later)
      | (.error error, later) => (handler error).runOn later := by
  simp only [runOn, ExceptT.run, tryCatch, tryCatchThe, MonadExceptOf.tryCatch, ExceptT.tryCatch,
    ExceptT.mk]
  rw [StateT.run_bind]
  rcases StateT.run work session with ⟨error | a, later⟩
  · rfl
  · rfl

namespace Engine

variable {σ α β : Type} (e : Engine σ)

/-- Does what is requested. -/
def serve : (request : Request) → EngineM σ request.Answer
  | .prepare method => e.prepare method
  | .assemble method call => e.assemble method call
  | .render method call => e.render method call
  | .explain method call => e.explain method call
  | .find method call => e.find method call
  | .findAll method call => e.findAll method call
  | .hasMatch method call => e.hasMatch method call
  | .count method call => e.count method call
  | .delete method call => e.delete method call
  | .invoke method call => e.invoke method call
  | .pointRead id partition => e.pointRead id partition
  | .pointDelete id partition => e.pointDelete id partition
  | .deleteDocument document => e.deleteDocument document
  | .findByIds ids => e.findByIds ids
  | .upsert document => e.upsert document
  | .countAll => e.countAll
  | .deleteAll => e.deleteAll

/-! ## Documents that a request looks into -/

/-- The documents that a removal by method name collects. -/
def collected (method : String) (call : Call) : EngineM σ (List Document) := do
  let query ← e.assembleFor .delete method call
  let _ ← e.check method (Partition.require e.metadata query.tree)
  e.gather query

/-- The documents of which a request reads the partitions behind planning. -/
def takes : Request → EngineM σ (List Document)
  | .upsert document => return [document]
  | .delete method call => e.collected method call
  | .invoke method call => do
    match (← e.prepare method).action with
    | .delete => e.collected method call
    | _ => return []
  | .deleteAll => do e.gather (← e.assemble "deleteAll" {})
  | _ => return []

/-- Behind planning the request meets a document that does not name its partition. -/
def MeetsUnplaced (session : Session σ) (request : Request) : Prop :=
  ∃ documents later, (e.takes request).runOn session = (.ok documents, later) ∧
    ∃ document ∈ documents, Partition.Unplaced e.metadata document

/-! ## The course of a request -/

variable (unplaced : Prop) {session later : Session σ}

/-- Planning comes first, and the store is asked only behind it. -/
inductive Course : Session σ → Option QueryError → Session σ → Prop where
  | refused {session later : Session σ} {error : QueryError}
      (h : Chain e.PlanStep session (some error) later) : Course session (some error) later
  | served {session planned later : Session σ} {failure : Option QueryError}
      (hplan : Chain e.PlanStep session none planned)
      (hserve : Chain (e.StoreStep unplaced) planned failure later) : Course session failure later

variable {unplaced}

theorem Course.of_plan {failure : Option QueryError} (h : Chain e.PlanStep session failure later) :
    e.Course unplaced session failure later := by
  cases failure with
  | none => exact .served h (.done later)
  | some error => exact .refused h

theorem Course.behind {planned : Session σ} {failure : Option QueryError}
    (hplan : Chain e.PlanStep session none planned) (h : e.Course unplaced planned failure later) :
    e.Course unplaced session failure later := by
  cases h with
  | refused h => exact .refused (hplan.append h)
  | served hplan' hserve => exact .served (hplan.append hplan') hserve

variable (unplaced)

/-- The work takes this course. -/
def Works (work : EngineM σ α) (session : Session σ) : Prop :=
  e.Course unplaced session (failure? (work.runOn session).1) (work.runOn session).2

variable {e unplaced} {work : EngineM σ α} {next : α → EngineM σ β}

theorem Works.of_eq {outcome : Except QueryError α} (h : work.runOn session = (outcome, later))
    (hcourse : e.Course unplaced session (failure? outcome) later) :
    e.Works unplaced work session := by
  rw [Works, h]
  exact hcourse

theorem Works.plans (h : e.Plans work session) : e.Works unplaced work session :=
  Course.of_plan e h

theorem Works.serves (h : e.Serves unplaced work session) : e.Works unplaced work session :=
  .served (.done session) h

theorem Works.bind (hwork : e.Plans work session)
    (hnext : ∀ a later, work.runOn session = (.ok a, later) → e.Works unplaced (next a) later) :
    e.Works unplaced (work >>= next) session := by
  rcases hrun : work.runOn session with ⟨error | a, later⟩
  · have hbind : (work >>= next).runOn session = (.error error, later) := by
      rw [EngineM.runOn_bind, hrun]
    exact .of_eq hbind (.refused (hwork.chain hrun))
  · have hbind : (work >>= next).runOn session = (next a).runOn later := by
      rw [EngineM.runOn_bind, hrun]
    exact .of_eq hbind (Course.behind e (hwork.chain hrun) (hnext a later hrun))

theorem Works.map (f : α → β) (hwork : e.Works unplaced work session) :
    e.Works unplaced (work >>= fun a => pure (f a)) session := by
  have hbind := EngineM.runOn_bind work (fun a => pure (f a)) session
  rw [Works] at hwork
  rcases hrun : work.runOn session with ⟨error | a, later⟩
  · rw [hrun] at hwork hbind
    exact .of_eq hbind hwork
  · rw [hrun] at hwork hbind
    exact .of_eq hbind hwork

/-! ## Each request takes it -/

section Requests

variable (e unplaced) (method : String) (call : Call) (session : Session σ)

/-- A plan is made like a query; a refusal is told, not passed on. -/
theorem runOn_explain :
    (e.explain method call).runOn session =
      match (e.assemble method call).runOn session with
      | (.ok query, later) =>
        (.ok (.accepted query (Partition.resolve? e.metadata query.tree)), later)
      | (.error error, later) => (.ok (.rejected error), later) := by
  rw [explain, EngineM.runOn_tryCatch, EngineM.runOn_bind]
  rcases (e.assemble method call).runOn session with ⟨error | query, later⟩
  · rfl
  · rfl

theorem plans_findAll : e.Plans (e.findAll method call) session := by
  refine (e.plans_assembleFor method call session .find).bind ?_
  intro query _ _
  exact EngineM.runs_pure (Pages.ofQuery query)

theorem works_find : e.Works unplaced (e.find method call) session := by
  refine .bind (e.plans_assembleFor method call session .find) ?_
  intro query _ _
  exact .serves (e.serves_fetchPage unplaced query)

theorem works_hasMatch : e.Works unplaced (e.hasMatch method call) session := by
  refine .bind (e.plans_assembleFor method call session .exists) ?_
  intro query _ _
  exact .serves (e.serves_probe unplaced query)

theorem works_count : e.Works unplaced (e.count method call) session := by
  refine .bind (e.plans_assembleFor method call session .count) ?_
  intro query _ _
  exact .serves (e.serves_countMatches unplaced query)

variable {session} in
/-- A removal by method name refuses nothing behind planning if all documents that it collects name
their partitions. -/
theorem works_delete
    (h : ∀ found later, (e.collected method call).runOn session = (.ok found, later) →
      ∀ document ∈ found, Partition.Unplaced e.metadata document → unplaced) :
    e.Works unplaced (e.delete method call) session := by
  refine .bind (e.plans_assembleFor method call session .delete) ?_
  intro query assembled hassemble
  refine .bind (e.plans_check method assembled (Partition.onlyRefuses_require e.metadata _)) ?_
  intro partition checked hcheck
  refine .serves (e.serves_deleteMatches unplaced ?_)
  intro found later hgather
  refine h found later ?_
  rw [collected, EngineM.runOn_bind, hassemble]
  dsimp only
  rw [EngineM.runOn_bind, hcheck]
  exact hgather

variable {session} in
theorem works_deleteAll
    (h : ∀ found later, (e.takes .deleteAll).runOn session = (.ok found, later) →
      ∀ document ∈ found, Partition.Unplaced e.metadata document → unplaced) :
    e.Works unplaced e.deleteAll session := by
  refine .bind (e.plans_assemble "deleteAll" {} session) ?_
  intro query assembled hassemble
  refine .serves (e.serves_deleteMatches unplaced ?_)
  intro found later hgather
  refine h found later ?_
  rw [takes, EngineM.runOn_bind, hassemble]
  exact hgather

variable {session} in
theorem works_invoke
    (h : ∀ found later, (e.takes (.invoke method call)).runOn session = (.ok found, later) →
      ∀ document ∈ found, Partition.Unplaced e.metadata document → unplaced) :
    e.Works unplaced (e.invoke method call) session := by
  refine .bind (e.plans_prepare method session) ?_
  intro operation prepared hprepare
  simp only [takes, EngineM.runOn_bind, hprepare] at h
  cases haction : operation.action with
  | find => exact (e.works_find unplaced method call prepared).map Outcome.found
  | «exists» => exact (e.works_hasMatch unplaced method call prepared).map Outcome.exists
  | count => exact (e.works_count unplaced method call prepared).map Outcome.count
  | delete =>
    rw [haction] at h
    exact (e.works_delete unplaced method call h).map Outcome.deleted

theorem works_pointRead (id : String) (partition : Option Json) :
    e.Works unplaced (e.pointRead id partition) session := by
  refine .bind (e.plans_pointPartition "findById" session partition) ?_
  intro binding _ _
  exact .serves (e.serves_pointRead unplaced e.metadata.collection id binding)

theorem works_pointDelete (id : String) (partition : Option Json) :
    e.Works unplaced (e.pointDelete id partition) session := by
  refine .bind (e.plans_pointPartition "deleteById" session partition) ?_
  intro binding _ _
  exact .serves (e.serves_deleteOne unplaced id binding)

theorem works_deleteDocument (document : Document) :
    e.Works unplaced (e.deleteDocument document) session := by
  cases hid : Document.id e.metadata document with
  | error error =>
    -- The identifier is looked at before anything is planned.
    have hrun : (e.deleteDocument document).runOn session = (.error error, session) := by
      rw [deleteDocument, EngineM.runOn_bind, EngineM.runOn_ofExcept, hid]
    exact .serves (.of_eq hrun (.stop (.gaveUp session (Document.isValidation_of_id hid))))
  | ok id =>
    have hrest : e.Works unplaced (do
        let binding ← e.check "delete" (Partition.ofDocument e.metadata document)
        e.deleteOne id binding : EngineM σ Unit) session := by
      refine .bind
        (e.plans_check "delete" session (Partition.onlyRefuses_ofDocument e.metadata document)) ?_
      intro binding _ _
      exact .serves (e.serves_deleteOne unplaced id binding)
    rw [deleteDocument, hid]
    exact hrest

theorem works_findByIds (ids : List String) : e.Works unplaced (e.findByIds ids) session := by
  rw [findByIds]
  split
  · exact .plans (EngineM.runs_pure [])
  · refine .bind (e.plans_findAll e.findByIdsMethod _ session) ?_
    intro pages _ _
    exact .serves (e.serves_collect unplaced pages)

theorem works_upsert {document : Document}
    (h : Partition.Unplaced e.metadata document → unplaced) :
    e.Works unplaced (e.upsert document) session := by
  refine .serves ((e.serves_ofDocument unplaced h).bind ?_)
  intro binding _ _
  exact e.serves_upsert unplaced e.metadata.collection document binding

/-- Planning alone. -/
theorem plans_serve {request : Request} (h : request.isPlanning) :
    Chain e.PlanStep session (request.fault? ((e.serve request).runOn session).1)
      ((e.serve request).runOn session).2 := by
  cases request with
  | prepare method => exact e.plans_prepare method session
  | assemble method call => exact e.plans_assemble method call session
  | render method call =>
    refine EngineM.Runs.bind (e.plans_assemble method call session) ?_
    intro query _ _
    exact EngineM.runs_pure (Sql.render query)
  | explain method call =>
    have hassemble := e.plans_assemble method call session
    rw [serve, runOn_explain]
    rcases hrun : (e.assemble method call).runOn session with ⟨error | query, later⟩
    · exact hassemble.chain hrun
    · exact hassemble.chain hrun
  | _ => cases h

/-- **Every request is planned before it is served, and is refused late only for a document that it
meets.** -/
theorem course_serve (request : Request) :
    e.Course (e.MeetsUnplaced session request) session
      (request.fault? ((e.serve request).runOn session).1) ((e.serve request).runOn session).2 := by
  have hmeets : ∀ found later, (e.takes request).runOn session = (.ok found, later) →
      ∀ document ∈ found, Partition.Unplaced e.metadata document →
        e.MeetsUnplaced session request := by
    intro found later hrun document hmem hunplaced
    exact ⟨found, later, hrun, document, hmem, hunplaced⟩
  cases request with
  | prepare | assemble | render | explain => exact .of_plan e (e.plans_serve session rfl)
  | find method call => exact e.works_find _ method call session
  | findAll method call => exact .of_plan e (e.plans_findAll method call session)
  | hasMatch method call => exact e.works_hasMatch _ method call session
  | count method call => exact e.works_count _ method call session
  | delete method call => exact e.works_delete _ method call hmeets
  | invoke method call => exact e.works_invoke _ method call hmeets
  | pointRead id partition => exact e.works_pointRead _ session id partition
  | pointDelete id partition => exact e.works_pointDelete _ session id partition
  | deleteDocument document => exact e.works_deleteDocument _ session document
  | findByIds ids => exact e.works_findByIds _ session ids
  | upsert document =>
    exact e.works_upsert _ session (hmeets [document] session rfl document (List.mem_singleton_self _))
  | countAll => exact Works.serves (e.serves_countAll _ _)
  | deleteAll => exact e.works_deleteAll _ hmeets

/-- **What holds of each step, and can be put together, holds of every request.** -/
theorem lift_serve {R : Session σ → Session σ → Prop} (hrefl : ∀ session, R session session)
    (htrans : ∀ {session later last}, R session later → R later last → R session last)
    (hplan : ∀ {session failure later}, e.PlanStep session failure later → R session later)
    (hstore : ∀ {unplaced session failure later},
      e.StoreStep unplaced session failure later → R session later)
    (session : Session σ) (request : Request) : R session ((e.serve request).runOn session).2 := by
  have hcourse := e.course_serve session request
  generalize (e.serve request).runOn session = run at hcourse ⊢
  generalize request.fault? run.1 = failure at hcourse
  cases hcourse with
  | refused h => exact h.lift hrefl htrans hplan
  | served h h' => exact htrans (h.lift hrefl htrans hplan) (h'.lift hrefl htrans hstore)

end Requests

end Engine

end DerivedQuery
