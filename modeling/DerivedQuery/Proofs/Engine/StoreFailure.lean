import DerivedQuery.Proofs.Engine.Account
import DerivedQuery.Proofs.Engine.Refusal
import DerivedQuery.Proofs.Engine.TokenProtocol

/-!
# Failures of the store

A failure that the store reports ends the work that asked for it: the failed call is the last one, and
its failure is that of the work, as it is (`Told`). This is shown of asking the store once, and it passes
to work that is put together from it (`EngineM.Surfaces.bind`), so each function of the engine has it
(`EngineM.Surfaces`). The one failure of the store that no call has failed with is that of removing a
document by its identifier that is not there; only two requests make it up (`Request.removedId?`).
-/

namespace DerivedQuery

/-- How the answers of a store, the last one first, show in the failure of the work that asked it: if a
call failed, it is the last one and its failure is that of the work; if none did, the work has no failure
of the store. -/
inductive Told : List Exchange → Option QueryError → Prop where
  | answered {exchanges : List Exchange} {failure : Option QueryError}
      (h : ∀ exchange ∈ exchanges, exchange.fault? = none)
      (hown : ∀ cause, failure ≠ some (.storeAccess cause)) : Told exchanges failure
  | failed (call : StoreCall) (cause : StoreError) {earlier : List Exchange}
      (h : ∀ exchange ∈ earlier, exchange.fault? = none) :
      Told (⟨call, .error cause⟩ :: earlier) (some (.storeAccess cause))

namespace Told

variable {exchanges others : List Exchange} {failure : Option QueryError}

theorem nil (hown : ∀ cause, failure ≠ some (.storeAccess cause)) : Told [] failure :=
  .answered (List.forall_mem_nil _) hown

/-- One call is told by its answer. -/
theorem one (call : StoreCall) (answer : Except StoreError call.Answer) :
    Told [⟨call, answer⟩] (failure? (answer.mapError .storeAccess)) := by
  cases answer with
  | error cause => exact .failed call cause (List.forall_mem_nil _)
  | ok answer => exact .answered (List.forall_mem_singleton.mpr rfl) nofun

theorem all_answered (h : Told exchanges none) : ∀ exchange ∈ exchanges, exchange.fault? = none := by
  cases h with
  | answered h => exact h

theorem append (h : Told exchanges none) (h' : Told others failure) :
    Told (others ++ exchanges) failure := by
  cases h' with
  | answered h' hown =>
    exact .answered (List.forall_mem_append.mpr ⟨h', h.all_answered⟩) hown
  | failed call cause h' =>
    exact .failed call cause (List.forall_mem_append.mpr ⟨h', h.all_answered⟩)

end Told

variable {σ α β : Type}

/-! ## Work that asks the store -/

namespace EngineM

/-- What the store has answered to the work shows in its failure. -/
def Surfaces (work : EngineM (σ × List Exchange) α) (session : Session (σ × List Exchange)) : Prop :=
  ∃ exchanges, (work.runOn session).2.store.2 = exchanges ++ session.store.2 ∧
    Told exchanges (failure? (work.runOn session).1)

variable {work : EngineM (σ × List Exchange) α} {next : α → EngineM (σ × List Exchange) β}
  {session later : Session (σ × List Exchange)}

theorem Surfaces.of_eq {outcome : Except QueryError α} (h : work.runOn session = (outcome, later))
    {exchanges : List Exchange} (htrace : later.store.2 = exchanges ++ session.store.2)
    (htold : Told exchanges (failure? outcome)) : work.Surfaces session := by
  rw [Surfaces, h]
  exact ⟨exchanges, htrace, htold⟩

theorem Surfaces.bind (hwork : work.Surfaces session) (hnext : ∀ a later, (next a).Surfaces later) :
    (work >>= next).Surfaces session := by
  obtain ⟨exchanges, htrace, htold⟩ := hwork
  rcases hrun : work.runOn session with ⟨error | a, later⟩
  · have hbind : (work >>= next).runOn session = (.error error, later) := by
      rw [runOn_bind, hrun]
    rw [hrun] at htrace htold
    exact .of_eq hbind htrace htold
  · have hbind : (work >>= next).runOn session = (next a).runOn later := by
      rw [runOn_bind, hrun]
    rw [hrun] at htrace htold
    obtain ⟨others, htrace', htold'⟩ := hnext a later
    rw [Surfaces, hbind]
    refine ⟨others ++ exchanges, ?_, htold.append htold'⟩
    rw [htrace', htrace, List.append_assoc]

/-- Work that leaves the store alone has nothing to tell of it. -/
theorem surfaces_of_store (hstore : (work.runOn session).2.store = session.store)
    (hown : ∀ cause, failure? (work.runOn session).1 ≠ some (.storeAccess cause)) :
    work.Surfaces session :=
  ⟨[], congrArg (·.2) hstore, .nil hown⟩

theorem surfaces_pure (a : α) : (pure a : EngineM (σ × List Exchange) α).Surfaces session :=
  surfaces_of_store rfl nofun

theorem surfaces_note (event : Event) (fields : List (String × String)) :
    (note event fields : EngineM (σ × List Exchange) Unit).Surfaces session :=
  surfaces_of_store rfl nofun

theorem surfaces_tally (change : Metrics → Metrics) :
    (tally change : EngineM (σ × List Exchange) Unit).Surfaces session :=
  surfaces_of_store rfl nofun

theorem surfaces_ofExcept {outcome : Except QueryError α}
    (hown : ∀ cause, failure? outcome ≠ some (.storeAccess cause)) :
    (ofExcept outcome : EngineM (σ × List Exchange) α).Surfaces session := by
  refine surfaces_of_store ?_ ?_
  · rw [runOn_ofExcept]
  · rw [runOn_ofExcept]
    exact hown

variable (store : DocumentStore σ)

/-- **A failure of the store is passed on as it is.** -/
theorem surfaces_ask (call : StoreCall) : (ask store.witnessed call).Surfaces session := by
  rw [Surfaces, runOn_ask]
  rcases hanswer : store.witnessed.answer call session.store with ⟨error | answer, state⟩
  · exact ⟨_, DocumentStore.exchanges_answer hanswer, .one call (.error error)⟩
  · exact ⟨_, DocumentStore.exchanges_answer hanswer, .one call (.ok answer)⟩

theorem surfaces_fetchPage (query : Query) : (fetchPage store.witnessed query).Surfaces session := by
  refine (surfaces_ask store _).bind fun batch _ => ?_
  refine (surfaces_tally _).bind fun _ _ => ?_
  refine (surfaces_note _ _).bind fun _ _ => ?_
  exact surfaces_pure _

theorem surfaces_probe (query : Query) : (probe store.witnessed query).Surfaces session :=
  (surfaces_fetchPage store _).bind fun page _ => surfaces_pure (!page.items.isEmpty)

theorem surfaces_pointRead (collection id : String) (partition : Option PartitionBinding) :
    (pointRead store.witnessed collection id partition).Surfaces session := by
  refine (surfaces_ask store _).bind fun found _ => ?_
  refine (surfaces_note _ _).bind fun _ _ => ?_
  exact surfaces_pure found

theorem surfaces_pointDelete (collection id : String) (partition : Option PartitionBinding) :
    (pointDelete store.witnessed collection id partition).Surfaces session := by
  refine (surfaces_ask store _).bind fun deleted _ => ?_
  have hnoted : ∀ later, (do
      note .pointDelete [("collection", collection), ("id", id), ("deleted", truth deleted)]
      return deleted : EngineM (σ × List Exchange) Bool).Surfaces later :=
    fun _ => (surfaces_note _ _).bind fun _ _ => surfaces_pure deleted
  cases deleted with
  | true => exact (surfaces_tally _).bind fun _ later => hnoted later
  | false => exact (surfaces_pure ()).bind fun _ later => hnoted later

end EngineM

/-- How failures of the store show in work that made some exchanges, the last one first, and left a
session and maybe an error. -/
structure Session.Surfaced (session later : Session (σ × List Exchange)) (failure : Option QueryError)
    (exchanges : List Exchange) : Prop where
  asked : later.store.2 = exchanges ++ session.store.2
  /-- The first call that fails is the last one. -/
  last : ∀ call cause, ⟨call, .error cause⟩ ∈ exchanges → ∃ earlier,
    exchanges = ⟨call, .error cause⟩ :: earlier ∧ ∀ exchange ∈ earlier, exchange.fault? = none
  unchanged : ∀ call cause, ⟨call, .error cause⟩ ∈ exchanges → failure = some (.storeAccess cause)
  counted : ∀ call cause, ⟨call, .error cause⟩ ∈ exchanges →
    later.metrics.storeErrors = session.metrics.storeErrors + 1
  quiet : (∀ exchange ∈ exchanges, exchange.fault? = none) →
    later.metrics.storeErrors = session.metrics.storeErrors

section Surfaced

variable {session later : Session (σ × List Exchange)} {exchanges : List Exchange}
  {failure : Option QueryError}

theorem Session.Accounted.storeErrors (h : session.Accounted later)
    (htrace : later.store.2 = exchanges ++ session.store.2) :
    later.metrics.storeErrors
      = session.metrics.storeErrors + (exchanges.filterMap Exchange.fault?).length := by
  obtain ⟨others, htrace', hcounts⟩ := h.exchanges
  rw [List.append_cancel_right (htrace.symm.trans htrace')]
  exact hcounts.failures

theorem Exchange.not_mem_of_answered (h : ∀ exchange ∈ exchanges, exchange.fault? = none)
    (call : StoreCall) (cause : StoreError) : ⟨call, .error cause⟩ ∉ exchanges :=
  fun hmem => nomatch h _ hmem

/-- Without a call that fails there is nothing to show. -/
theorem Session.Surfaced.of_answered (h : ∀ exchange ∈ exchanges, exchange.fault? = none)
    (htrace : later.store.2 = exchanges ++ session.store.2) (haccounted : session.Accounted later) :
    session.Surfaced later failure exchanges where
  asked := htrace
  last call cause hmem := absurd hmem (Exchange.not_mem_of_answered h call cause)
  unchanged call cause hmem := absurd hmem (Exchange.not_mem_of_answered h call cause)
  counted call cause hmem := absurd hmem (Exchange.not_mem_of_answered h call cause)
  quiet _ := by
    rw [haccounted.storeErrors htrace, List.filterMap_eq_nil_iff.mpr h]
    rfl

/-- What is told is counted. -/
theorem Told.surfaced (htold : Told exchanges failure)
    (htrace : later.store.2 = exchanges ++ session.store.2) (haccounted : session.Accounted later) :
    session.Surfaced later failure exchanges := by
  cases htold with
  | answered h => exact .of_answered h htrace haccounted
  | @failed call cause earlier h =>
    have hlast : ∀ call' cause', ⟨call', .error cause'⟩ ∈ (⟨call, .error cause⟩ : Exchange) :: earlier →
        (⟨call', .error cause'⟩ : Exchange) = ⟨call, .error cause⟩ := fun call' cause' hmem =>
      (List.mem_cons.mp hmem).resolve_right (Exchange.not_mem_of_answered h call' cause')
    refine ⟨htrace, ?_, ?_, ?_, ?_⟩
    · intro call' cause' hmem
      rw [hlast call' cause' hmem]
      exact ⟨earlier, rfl, h⟩
    · intro call' cause' hmem
      cases hlast call' cause' hmem
      rfl
    · intro _ _ _
      rw [haccounted.storeErrors htrace]
      have hone : (((⟨call, .error cause⟩ : Exchange) :: earlier).filterMap Exchange.fault?) = [cause] :=
        congrArg (cause :: ·) (List.filterMap_eq_nil_iff.mpr h)
      rw [hone]
      rfl
    · intro hnone
      cases hnone _ List.mem_cons_self

/-- A failure of the store that is told is that of a call. -/
theorem Told.exists_failed {cause : StoreError} (htold : Told exchanges (some (.storeAccess cause))) :
    ∃ call, ⟨call, .error cause⟩ ∈ exchanges := by
  cases htold with
  | answered _ hown => exact absurd rfl (hown cause)
  | failed call _ _ => exact ⟨call, List.mem_cons_self⟩

end Surfaced

/-! ## Walks -/

namespace Pages

open EngineM (Surfaces)

variable (store : DocumentStore σ) (session : Session (σ × List Exchange))

/-- A step of a walk asks once, or not at all if the walk is over. -/
theorem told_next (pages : Pages) :
    ∃ exchanges, ((pages.next store.witnessed).run session).2.store.2 = exchanges ++ session.store.2 ∧
      Told exchanges (((pages.next store.witnessed).run session).1.1.bind failure?) := by
  rw [run_next]
  cases pages.cursor.nextPage pages.query.page with
  | none => exact ⟨[], rfl, .nil nofun⟩
  | some state =>
    obtain ⟨exchanges, htrace, htold⟩ :
        (EngineM.fetchPage store.witnessed (pages.query.withPage state)).Surfaces session :=
      EngineM.surfaces_fetchPage store _
    dsimp only
    rcases hfetch : (EngineM.fetchPage store.witnessed (pages.query.withPage state)).runOn session with
      ⟨error | page, fetched⟩
    · rw [hfetch] at htrace htold
      exact ⟨exchanges, htrace, htold⟩
    · rw [hfetch] at htrace htold
      refine ⟨exchanges, ?_, htold⟩
      rw [← htrace]
      exact congrArg (·.2) (kept_noted pages page fetched).store

/-- A failure ends the walk. -/
theorem over_of_failure {store : DocumentStore σ} {session : Session σ} {pages : Pages}
    {error : QueryError} (h : ((pages.next store).run session).1.1.bind failure? = some error) :
    ((pages.next store).run session).1.2 = { pages with cursor := .exhausted } := by
  rw [run_next] at h ⊢
  cases hstate : pages.cursor.nextPage pages.query.page with
  | none =>
    rw [hstate] at h
    cases h
  | some state =>
    simp only [hstate] at h ⊢
    rcases hfetch : (EngineM.fetchPage store (pages.query.withPage state)).runOn session with
      ⟨cause | page, fetched⟩
    · rfl
    · rw [hfetch] at h
      cases h

theorem surfaces_drain (bound : Nat) (pages : Pages) :
    (pages.drain store.witnessed .ok bound).Surfaces session := by
  induction bound generalizing pages session with
  | zero =>
    rw [drain]
    split
    · exact EngineM.surfaces_pure []
    · refine EngineM.surfaces_of_store rfl ?_
      rintro cause ⟨⟩
  | succ bound ih =>
    obtain ⟨exchanges, htrace, htold⟩ := told_next store session pages
    have hdrain := runOn_drain_ok_succ store.witnessed bound pages session
    rcases hnext : (pages.next store.witnessed).run session with ⟨⟨_ | error | page, behind⟩, later⟩
    · rw [hnext] at htrace htold hdrain
      exact .of_eq hdrain htrace htold
    · rw [hnext] at htrace htold hdrain
      exact .of_eq hdrain htrace htold
    · rw [hnext] at htrace htold hdrain
      obtain ⟨others, htrace', htold'⟩ : Surfaces (do
          let rest ← drain store.witnessed .ok bound behind
          return page.items ++ rest : EngineM (σ × List Exchange) (List Document)) later :=
        (ih later behind).bind fun rest _ => EngineM.surfaces_pure (page.items ++ rest)
      rw [Surfaces, hdrain]
      refine ⟨others ++ exchanges, ?_, htold.append htold'⟩
      dsimp only
      rw [htrace', htrace, List.append_assoc]

end Pages

/-! ## Requests -/

/-- The identifier of the document that a request removes, if it removes just one. -/
def Request.removedId? (m : EntityMetadata) : Request → Option String
  | .pointDelete id _ => some id
  | .deleteDocument document => (Document.id m document).toOption
  | _ => none

/-- Removing a document was answered by that it is not there, and this is the failure of the work. -/
def EngineM.Misses (work : EngineM (σ × List Exchange) α) (session : Session (σ × List Exchange))
    (collection id : String) : Prop :=
  ∃ partition, (work.runOn session).2.store.2
      = ⟨.pointDelete collection id partition, .ok false⟩ :: session.store.2 ∧
    (work.runOn session).1
      = .error (.storeAccess (.notFound ("document '" ++ id ++ "' in '" ++ collection ++ "'")))

/-- A refusal is no failure of the store. -/
theorem OnlyRefuses.ne_storeAccess {outcome : Except QueryError α} (h : OnlyRefuses outcome)
    (cause : StoreError) : failure? outcome ≠ some (.storeAccess cause) := by
  cases outcome with
  | ok a => nofun
  | error error =>
    rintro ⟨⟩
    cases h _ rfl

/-- A document without a usable identifier is no failure of the store. -/
theorem Document.ne_storeAccess_of_id (m : EntityMetadata) (document : Document) (cause : StoreError) :
    failure? (Document.id m document) ≠ some (.storeAccess cause) := by
  unfold Document.id
  split
  · nofun
  · split
    · nofun
    · nofun

namespace Engine

open EngineM (Surfaces Misses)

variable (e : Engine σ) {session : Session (σ × List Exchange)}

/-- Planning leaves the store alone. -/
theorem surfaces_of_plans {e : Engine (σ × List Exchange)} {work : EngineM (σ × List Exchange) α}
    (h : e.Plans work session) : work.Surfaces session := by
  have hplanned := onlyPlanned_of_chain h
  refine EngineM.surfaces_of_store hplanned.store ?_
  intro cause hfailure
  cases hplanned.isValidation _ hfailure

theorem surfaces_deleteFound (collection : String) (document : Document) :
    (e.witnessed.deleteFound collection document).Surfaces session := by
  refine (EngineM.surfaces_ofExcept (Document.ne_storeAccess_of_id e.metadata document)).bind ?_
  intro id _
  have hpartition := Partition.onlyRefuses_ofDocument e.metadata document
  refine (EngineM.surfaces_ofExcept hpartition.ne_storeAccess).bind ?_
  intro partition _
  exact EngineM.surfaces_pointDelete e.store collection id partition

theorem surfaces_deleteEach (collection : String) (documents : List Document) :
    (e.witnessed.deleteEach collection documents).Surfaces session := by
  induction documents generalizing session with
  | nil => exact EngineM.surfaces_pure 0
  | cons document rest ih =>
    refine (e.surfaces_deleteFound collection document).bind ?_
    intro deleted _
    refine ih.bind ?_
    intro number _
    exact EngineM.surfaces_pure ((if deleted then 1 else 0) + number)

theorem surfaces_collect (pages : Pages) :
    (pages.collect e.witnessed.store .ok).Surfaces session :=
  Pages.surfaces_drain e.store session (e.store.walkBound session.store.1) pages

theorem surfaces_deleteMatches (query : Query) :
    (e.witnessed.deleteMatches query).Surfaces session := by
  refine (e.surfaces_collect _).bind ?_
  intro found _
  refine (e.surfaces_deleteEach query.collection found).bind ?_
  intro number _
  refine (EngineM.surfaces_note _ _).bind ?_
  intro _ _
  exact EngineM.surfaces_pure number

theorem surfaces_assembleFor (action : Action) (method : String) (call : Call) :
    (e.witnessed.assembleFor action method call).Surfaces session :=
  surfaces_of_plans (e.witnessed.plans_assembleFor method call session action)

theorem surfaces_find (method : String) (call : Call) :
    (e.witnessed.find method call).Surfaces session := by
  refine (e.surfaces_assembleFor .find method call).bind ?_
  intro query _
  exact EngineM.surfaces_fetchPage e.store query

theorem surfaces_hasMatch (method : String) (call : Call) :
    (e.witnessed.hasMatch method call).Surfaces session := by
  refine (e.surfaces_assembleFor .exists method call).bind ?_
  intro query _
  exact EngineM.surfaces_probe e.store query

theorem surfaces_count (method : String) (call : Call) :
    (e.witnessed.count method call).Surfaces session := by
  refine (e.surfaces_assembleFor .count method call).bind ?_
  intro query _
  exact EngineM.surfaces_ask e.store _

theorem surfaces_delete (method : String) (call : Call) :
    (e.witnessed.delete method call).Surfaces session := by
  refine (e.surfaces_assembleFor .delete method call).bind ?_
  intro query assembled
  refine (surfaces_of_plans (e.witnessed.plans_check method assembled
    (Partition.onlyRefuses_require e.metadata query.tree))).bind ?_
  intro _ _
  exact e.surfaces_deleteMatches query

theorem surfaces_invoke (method : String) (call : Call) :
    (e.witnessed.invoke method call).Surfaces session := by
  refine (surfaces_of_plans (e.witnessed.plans_prepare method session)).bind ?_
  intro operation _
  cases operation.action with
  | find => exact (e.surfaces_find method call).bind fun _ _ => EngineM.surfaces_pure _
  | «exists» => exact (e.surfaces_hasMatch method call).bind fun _ _ => EngineM.surfaces_pure _
  | count => exact (e.surfaces_count method call).bind fun _ _ => EngineM.surfaces_pure _
  | delete => exact (e.surfaces_delete method call).bind fun _ _ => EngineM.surfaces_pure _

theorem surfaces_explain (method : String) (call : Call) :
    (e.witnessed.explain method call).Surfaces session := by
  have hstore := (onlyPlanned_of_chain (e.witnessed.plans_assemble method call session)).store
  have hexplain := e.witnessed.runOn_explain method call session
  rcases hrun : (e.witnessed.assemble method call).runOn session with ⟨error | query, later⟩
  · rw [hrun] at hstore hexplain
    exact .of_eq hexplain (congrArg (·.2) hstore) (.nil nofun)
  · rw [hrun] at hstore hexplain
    exact .of_eq hexplain (congrArg (·.2) hstore) (.nil nofun)

theorem surfaces_findByIds (ids : List String) : (e.witnessed.findByIds ids).Surfaces session := by
  rw [findByIds]
  split
  · exact EngineM.surfaces_pure []
  · refine (surfaces_of_plans
      (e.witnessed.plans_findAll e.witnessed.findByIdsMethod _ session)).bind ?_
    intro pages _
    exact e.surfaces_collect pages

/-! ### Removals by identifier -/

theorem surfaces_or_misses_deleteOne (id : String) (partition : Option PartitionBinding) :
    (e.witnessed.deleteOne id partition).Surfaces session ∨
      Misses (e.witnessed.deleteOne id partition) session e.metadata.collection id := by
  rcases hanswer : e.witnessed.store.answer (.pointDelete e.metadata.collection id partition)
    session.store with ⟨cause | deleted, state⟩
  · have hrun : (e.witnessed.deleteOne id partition).runOn session = (.error (.storeAccess cause),
        session.failed state (.pointDelete e.metadata.collection id partition) cause) := by
      rw [deleteOne, EngineM.runOn_bind, EngineM.pointDelete, EngineM.runOn_bind, EngineM.runOn_ask]
      rw [show e.witnessed.metadata = e.metadata from rfl, hanswer]
      rfl
    refine .inl (.of_eq hrun ?_
      (.one (.pointDelete e.metadata.collection id partition) (.error cause)))
    exact DocumentStore.exchanges_answer hanswer
  · obtain ⟨later, hdelete, hstore, -⟩ := EngineM.runOn_pointDelete hanswer
    have htrace := DocumentStore.exchanges_answer hanswer
    rw [← hstore] at htrace
    cases deleted with
    | true =>
      have hrun : (e.witnessed.deleteOne id partition).runOn session = (.ok (), later) := by
        rw [deleteOne, EngineM.runOn_bind, show e.witnessed.metadata = e.metadata from rfl, hdelete]
        rfl
      exact .inl (.of_eq hrun htrace
        (.one (.pointDelete e.metadata.collection id partition) (.ok true)))
    | false =>
      have hrun : (e.witnessed.deleteOne id partition).runOn session = (.error (.storeAccess
          (.notFound ("document '" ++ id ++ "' in '" ++ e.metadata.collection ++ "'"))), later) := by
        rw [deleteOne, EngineM.runOn_bind, show e.witnessed.metadata = e.metadata from rfl, hdelete]
        rfl
      refine .inr ⟨partition, ?_, ?_⟩
      · rw [hrun]
        exact htrace
      · rw [hrun]

/-- Planning before it changes nothing about that. -/
theorem surfaces_or_misses_bind {work : EngineM (σ × List Exchange) α}
    {next : α → EngineM (σ × List Exchange) β} {collection id : String}
    (hwork : e.witnessed.Plans work session)
    (hnext : ∀ a later, (next a).Surfaces later ∨ Misses (next a) later collection id) :
    (work >>= next).Surfaces session ∨ Misses (work >>= next) session collection id := by
  rcases hrun : work.runOn session with ⟨error | a, planned⟩
  · have hbind : (work >>= next).runOn session = (.error error, planned) := by
      rw [EngineM.runOn_bind, hrun]
    obtain ⟨exchanges, htrace, htold⟩ := surfaces_of_plans hwork
    rw [hrun] at htrace htold
    exact .inl (.of_eq hbind htrace htold)
  · have hbind : (work >>= next).runOn session = (next a).runOn planned := by
      rw [EngineM.runOn_bind, hrun]
    have hstore : planned.store = session.store := (onlyPlanned_of_chain (hwork.chain hrun)).store
    rw [Surfaces, Misses, hbind, ← hstore]
    exact hnext a planned

theorem surfaces_or_misses_deleteDocument (document : Document) :
    (e.witnessed.deleteDocument document).Surfaces session ∨
      ∃ id ∈ (Document.id e.metadata document).toOption,
        Misses (e.witnessed.deleteDocument document) session e.metadata.collection id := by
  cases hid : Document.id e.metadata document with
  | error error =>
    have hrun : (e.witnessed.deleteDocument document).runOn session = (.error error, session) := by
      rw [deleteDocument, EngineM.runOn_bind, EngineM.runOn_ofExcept,
        show e.witnessed.metadata = e.metadata from rfl, hid]
    have hown := Document.ne_storeAccess_of_id e.metadata document
    rw [hid] at hown
    exact .inl (.of_eq hrun rfl (.nil hown))
  | ok id =>
    have hdelete : e.witnessed.deleteDocument document = (do
        let binding ← e.witnessed.check "delete" (Partition.ofDocument e.metadata document)
        e.witnessed.deleteOne id binding) := by
      rw [deleteDocument, show e.witnessed.metadata = e.metadata from rfl, hid]
      rfl
    rw [hdelete]
    refine (e.surfaces_or_misses_bind (e.witnessed.plans_check "delete" session
      (Partition.onlyRefuses_ofDocument e.metadata document)) ?_).imp_right fun h => ⟨id, rfl, h⟩
    exact fun binding _ => e.surfaces_or_misses_deleteOne id binding

/-! ### All requests -/

/-- **The answers of the store show in the failure of a request, whatever it is.** -/
theorem surfaces_or_misses_serve (session : Session (σ × List Exchange)) (request : Request) :
    (e.witnessed.serve request).Surfaces session ∨
      ∃ id ∈ request.removedId? e.metadata,
        Misses (e.witnessed.serve request) session e.metadata.collection id := by
  cases request with
  | prepare method => exact .inl (surfaces_of_plans (e.witnessed.plans_prepare method session))
  | assemble method call =>
    exact .inl (surfaces_of_plans (e.witnessed.plans_assemble method call session))
  | render method call =>
    refine .inl ((surfaces_of_plans (e.witnessed.plans_assemble method call session)).bind ?_)
    exact fun query _ => EngineM.surfaces_pure (Sql.render query)
  | explain method call => exact .inl (e.surfaces_explain method call)
  | find method call => exact .inl (e.surfaces_find method call)
  | findAll method call =>
    exact .inl (surfaces_of_plans (e.witnessed.plans_findAll method call session))
  | hasMatch method call => exact .inl (e.surfaces_hasMatch method call)
  | count method call => exact .inl (e.surfaces_count method call)
  | delete method call => exact .inl (e.surfaces_delete method call)
  | invoke method call => exact .inl (e.surfaces_invoke method call)
  | pointRead id partition =>
    refine .inl ((surfaces_of_plans
      (e.witnessed.plans_pointPartition "findById" session partition)).bind ?_)
    exact fun binding _ => EngineM.surfaces_pointRead e.store e.metadata.collection id binding
  | pointDelete id partition =>
    refine (e.surfaces_or_misses_bind
      (e.witnessed.plans_pointPartition "deleteById" session partition) ?_).imp_right
        fun h => ⟨id, rfl, h⟩
    exact fun binding _ => e.surfaces_or_misses_deleteOne id binding
  | deleteDocument document => exact e.surfaces_or_misses_deleteDocument document
  | findByIds ids => exact .inl (e.surfaces_findByIds ids)
  | upsert document =>
    have hpartition := Partition.onlyRefuses_ofDocument e.metadata document
    refine .inl ((EngineM.surfaces_ofExcept hpartition.ne_storeAccess).bind ?_)
    exact fun binding _ => EngineM.surfaces_ask e.store _
  | countAll => exact .inl (EngineM.surfaces_ask e.store _)
  | deleteAll =>
    refine .inl ((surfaces_of_plans (e.witnessed.plans_assemble "deleteAll" {} session)).bind ?_)
    exact fun query _ => e.surfaces_deleteMatches query

/-- **A failure of the store ends a request or a walk, and is passed on as it is.** It is counted once,
and behind it a walk neither asks again nor gives anything. A failure of the store that no call has failed
with says that the document that was to be removed is not there. -/
theorem store_failures_surface (session : Session (σ × List Exchange)) :
    (∀ request, let run := (e.witnessed.serve request).runOn session
      ∃ exchanges, session.Surfaced run.2 (failure? run.1) exchanges ∧
        ∀ cause, run.1 = .error (.storeAccess cause) →
          (∃ call, ⟨call, .error cause⟩ ∈ exchanges) ∨
          ∃ id ∈ request.removedId? e.metadata, ∃ partition,
            exchanges = [⟨.pointDelete e.metadata.collection id partition, .ok false⟩] ∧
            cause = .notFound ("document '" ++ id ++ "' in '" ++ e.metadata.collection ++ "'")) ∧
    (∀ pages, let run := (Pages.next e.store.witnessed pages).run session
      ∃ exchanges, session.Surfaced run.2 (run.1.1.bind failure?) exchanges ∧
        (∀ cause, run.1.1 = some (.error (.storeAccess cause)) →
          ∃ call, ⟨call, .error cause⟩ ∈ exchanges) ∧
        ((∃ exchange ∈ exchanges, exchange.fault?.isSome) → ∀ more later,
          (Pages.advance e.store.witnessed more run.1.2).run later
            = ((List.replicate more none, run.1.2), later))) := by
  refine ⟨?_, ?_⟩
  · intro request run
    have haccounted : session.Accounted run.2 := e.accounted_serve session request
    rcases e.surfaces_or_misses_serve session request with
      ⟨exchanges, htrace, htold⟩ | ⟨id, hid, partition, htrace, hmissed⟩
    · refine ⟨exchanges, htold.surfaced htrace haccounted, ?_⟩
      intro cause hrun
      rw [show ((e.witnessed.serve request).runOn session).1 = _ from hrun] at htold
      exact .inl htold.exists_failed
    · refine ⟨[⟨.pointDelete e.metadata.collection id partition, .ok false⟩], ?_, ?_⟩
      · exact .of_answered (List.forall_mem_singleton.mpr rfl) htrace haccounted
      · intro cause hrun
        cases hmissed.symm.trans hrun
        exact .inr ⟨id, hid, partition, rfl, rfl⟩
  · intro pages run
    have haccounted : session.Accounted run.2 := e.accounted_next session pages
    obtain ⟨exchanges, htrace, htold⟩ := Pages.told_next e.store session pages
    have hsurfaced := htold.surfaced htrace haccounted
    refine ⟨exchanges, hsurfaced, ?_, ?_⟩
    · intro cause hrun
      rw [show ((Pages.next e.store.witnessed pages).run session).1.1 = _ from hrun] at htold
      exact htold.exists_failed
    · rintro ⟨⟨call, answer⟩, hmem, hfault⟩ more later
      cases answer with
      | ok answer => cases hfault
      | error cause =>
        have hover : run.1.2 = { pages with cursor := .exhausted } :=
          Pages.over_of_failure (hsurfaced.unchanged call cause hmem)
        rw [hover]
        exact Pages.run_advance_exhausted more later

/-- A removal of everything that fails at its second page has been given the first one, and removes
nothing. -/
theorem store_failures_surface_towns :
    let e : Engine _ := { store := DocumentStore.scripted, metadata := Town.metadata }
    let script : List (Except StoreError Batch) :=
      [.ok { documents := [Town.document "1" "NO" "Oslo"], continuation := some ⟨[7]⟩ },
        .error (.unavailable "away")]
    let run := (e.witnessed.serve .deleteAll).runOn { store := (script, []) }
    run.2.store.2.map (·.fault?) = [some (.unavailable "away"), none] ∧
      failure? run.1 = some (.storeAccess (.unavailable "away")) ∧ run.2.metrics.storeErrors = 1 := by
  intro e script run
  have hfaults : run.2.store.2.map (·.fault?) = [some (.unavailable "away"), none] := by decide +kernel
  obtain ⟨hserve, -⟩ := store_failures_surface e { store := (script, []) }
  obtain ⟨exchanges, h, -⟩ := hserve .deleteAll
  refine ⟨hfaults, ?_⟩
  rw [show run.2.store.2 = exchanges from h.asked.trans (List.append_nil exchanges)] at hfaults
  obtain ⟨⟨call, answer⟩, earlier, rfl, hfault, -⟩ := List.map_eq_cons_iff.mp hfaults
  cases answer with
  | ok answer => cases hfault
  | error cause =>
    cases hfault
    exact ⟨h.unchanged call _ List.mem_cons_self, h.counted call _ List.mem_cons_self⟩

end Engine

end DerivedQuery
