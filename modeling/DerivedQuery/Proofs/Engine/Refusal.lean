import DerivedQuery.Proofs.Engine.Found

/-!
# Refused requests

What is counted and logged when a request is refused, and what the store notices of it. Both are read
off the steps that a request is made of: a step of planning that refuses is counted and logged once and
leaves the store alone (`Engine.PlanStep.onlyPlanned`), no step behind planning is counted as a refusal
(`Engine.StoreStep.served`).

The one refusal that comes behind planning is that of a document that does not name its partition. It is
neither counted nor logged. Over a store in memory only an addition and the removal of everything can
meet such a document (`Engine.MeetsUnplaced.upsert_or_deleteAll`), and the removal has asked the store by
then.
-/

namespace DerivedQuery

variable {σ : Type}

/-- Behind the session just these errors, the last one first, have been counted and logged as
refusals. -/
structure Session.Refused (session later : Session σ) (errors : List QueryError) : Prop where
  counted : later.metrics.queriesRejected = session.metrics.queriesRejected + errors.length
  logged : ∃ entries, later.journal = entries ++ session.journal ∧
    (entries.filter (·.event == .queryRejected)).map (·.fields.lookup "code")
      = errors.map (some ·.code)

namespace Session.Refused

variable {session later last : Session σ} {errors others : List QueryError}

theorem refl : session.Refused session [] := ⟨rfl, [], rfl, rfl⟩

theorem trans (h : session.Refused later errors) (h' : later.Refused last others) :
    session.Refused last (others ++ errors) := by
  obtain ⟨entries, hjournal, hcodes⟩ := h.logged
  obtain ⟨entries', hjournal', hcodes'⟩ := h'.logged
  refine ⟨?_, entries' ++ entries, ?_, ?_⟩
  · rw [h'.counted, h.counted, List.length_append]
    omega
  · rw [hjournal', hjournal, List.append_assoc]
  · rw [List.filter_append, List.map_append, List.map_append, hcodes, hcodes']

/-- Logging something else is no refusal. -/
theorem of_entry {event : Event} {fields : List (String × String)} (hevent : event ≠ .queryRejected)
    (hcounted : later.metrics.queriesRejected = session.metrics.queriesRejected)
    (hjournal : later.journal = ⟨event, fields⟩ :: session.journal) : session.Refused later [] := by
  refine ⟨hcounted, [⟨event, fields⟩], hjournal, ?_⟩
  rw [List.filter_singleton, beq_false_of_ne hevent]
  rfl

end Session.Refused

namespace Engine

variable {e : Engine σ} {unplaced : Prop} {session later : Session σ} {failure : Option QueryError}

/-! ## Steps -/

/-- What planning alone leaves: its refusal, counted and logged, and the store as it was. -/
structure OnlyPlanned (session : Session σ) (failure : Option QueryError) (later : Session σ) :
    Prop where
  refused : session.Refused later failure.toList
  isValidation : ∀ error ∈ failure, error.isValidation
  store : later.store = session.store

theorem PlanStep.onlyPlanned (h : e.PlanStep session failure later) :
    OnlyPlanned session failure later := by
  cases h with
  | parsed => exact ⟨.of_entry (by decide) rfl rfl, nofun, rfl⟩
  | assembled => exact ⟨.of_entry (by decide) rfl rfl, nofun, rfl⟩
  | refused _ h =>
    refine ⟨⟨rfl, [_], rfl, rfl⟩, ?_, rfl⟩
    rintro _ ⟨⟩
    exact h

theorem onlyPlanned_of_chain (h : Chain e.PlanStep session failure later) :
    OnlyPlanned session failure later := by
  refine h.lift (fun session => ⟨.refl, nofun, rfl⟩) ?_ PlanStep.onlyPlanned
  intro session passed later failure hfirst hrest
  refine ⟨?_, hrest.isValidation, hrest.store.trans hfirst.store⟩
  have hboth := hfirst.refused.trans hrest.refused
  rwa [Option.toList_none, List.append_nil] at hboth

/-- What is left behind planning: no refusal is counted or logged, and there is none but that of a
document that does not name its partition. -/
structure Served (e : Engine σ) (unplaced : Prop) (session : Session σ) (failure : Option QueryError)
    (later : Session σ) : Prop where
  refused : session.Refused later []
  late : ∀ error ∈ failure, error.isValidation →
    unplaced ∧ error = Partition.required e.metadata

theorem refused_answered (call : StoreCall) (answer : call.Answer) (store : σ) :
    session.Refused (session.answered store call answer) [] := by
  cases call with
  | execute => exact .of_entry (by decide) rfl rfl
  | pointRead => exact .of_entry (by decide) rfl rfl
  | pointDelete => exact .of_entry (by decide) rfl rfl
  | count => exact ⟨rfl, [], rfl, rfl⟩
  | upsert => exact ⟨rfl, [], rfl, rfl⟩

theorem StoreStep.served (h : e.StoreStep unplaced session failure later) :
    e.Served unplaced session failure later := by
  cases h with
  | answered => exact ⟨refused_answered _ _ _, nofun⟩
  | failed =>
    refine ⟨.of_entry (by decide) rfl rfl, ?_⟩
    rintro _ ⟨⟩ ⟨⟩
  | noted _ h =>
    refine ⟨.of_entry ?_ rfl rfl, nofun⟩
    rcases h with rfl | rfl
    · decide
    · decide
  | gaveUp h =>
    refine ⟨.refl, ?_⟩
    rintro _ ⟨⟩ hvalidation
    rw [h] at hvalidation
    cases hvalidation
  | refused h =>
    refine ⟨.refl, ?_⟩
    rintro _ ⟨⟩ -
    exact ⟨h, rfl⟩

theorem served_of_chain (h : Chain (e.StoreStep unplaced) session failure later) :
    e.Served unplaced session failure later := by
  refine h.lift (fun session => ⟨.refl, nofun⟩) ?_ StoreStep.served
  intro session passed later failure hfirst hrest
  exact ⟨hfirst.refused.trans hrest.refused, hrest.late⟩

/-! ## Requests -/

variable (e) (session : Session σ) (request : Request)

/-- A request is refused by planning, or planning passes it and only a document that it meets refuses
it. -/
theorem onlyPlanned_or_served :
    OnlyPlanned session (request.refusal? ((e.serve request).runOn session).1)
      ((e.serve request).runOn session).2 ∨
    request.isPlanning = false ∧ e.Served (e.MeetsUnplaced session request) session
      (request.refusal? ((e.serve request).runOn session).1)
      ((e.serve request).runOn session).2 := by
  cases hplanning : request.isPlanning with
  | true =>
    have hplanned := onlyPlanned_of_chain (e.plans_serve session hplanning)
    rw [Request.refusal?_of_isValidation hplanned.isValidation]
    exact .inl hplanned
  | false =>
    have hcourse := e.course_serve session request
    generalize (e.serve request).runOn session = run at hcourse ⊢
    generalize hfault : request.fault? run.1 = fault at hcourse
    cases hcourse with
    | refused h =>
      have hplanned := onlyPlanned_of_chain h
      rw [← hfault] at hplanned
      rw [Request.refusal?_of_isValidation hplanned.isValidation]
      exact .inl hplanned
    | served hplan hserve =>
      have hserved := served_of_chain hserve
      refine .inr ⟨rfl, (onlyPlanned_of_chain hplan).refused.trans hserved.refused, ?_⟩
      rw [Request.refusal?_of_not_planning hplanning, hfault]
      intro error herror
      exact hserved.late error (Option.mem_filter_iff.mp herror).1

/-- **Every refusal is counted and logged once, with its code, and nothing else is.** The refusal of a
document that is met behind planning is the exception: it is neither counted nor logged. -/
theorem refusals_accounted :
    session.Refused ((e.serve request).runOn session).2
      (request.refusal? ((e.serve request).runOn session).1).toList ∨
    e.MeetsUnplaced session request ∧
      request.refusal? ((e.serve request).runOn session).1 = some (Partition.required e.metadata) ∧
      session.Refused ((e.serve request).runOn session).2 [] := by
  rcases e.onlyPlanned_or_served session request with hplanned | ⟨hplanning, hserved⟩
  · exact .inl hplanned.refused
  · cases hrefused : request.refusal? ((e.serve request).runOn session).1 with
    | none => exact .inl hserved.refused
    | some error =>
      rw [hrefused] at hserved
      have hvalidation := Request.isValidation_of_refusal? hplanning hrefused
      obtain ⟨hmeets, rfl⟩ := hserved.late error rfl hvalidation
      exact .inr ⟨hmeets, rfl, hserved.refused⟩

/-- A document without a country is refused, yet nothing is counted or logged. -/
theorem upsert_refused_silently :
    let request := Request.upsert (.object [("id", .string "4")])
    let run := ((inMemory Town.metadata {}).serve request).runOn { store := Town.store }
    request.refusal? run.1 = some (.partitionKeyRequired "towns") ∧
      ¬Session.Refused { store := Town.store } run.2 (request.refusal? run.1).toList := by
  refine ⟨rfl, fun h => ?_⟩
  have hcounted : 0 = 1 := h.counted
  cases hcounted

/-! ## The store -/

variable {e request} {memory : σ → MemoryStore} {session}

/-- Over a store that shows a memory, only two requests meet a document that does not name its partition:
one that hands it over, and the removal of everything. -/
theorem MeetsUnplaced.upsert_or_deleteAll (h : e.store.Reads memory)
    (hmeets : e.MeetsUnplaced session request) :
    (∃ document, request = .upsert document ∧ Partition.Unplaced e.metadata document) ∨
      request = .deleteAll ∧ ∃ document ∈
        ((memory session.store).entries e.metadata.collection).map (·.2),
        Partition.Unplaced e.metadata document := by
  obtain ⟨documents, later, hrun, document, hmem, hunplaced⟩ := hmeets
  cases request with
  | upsert given =>
    cases hrun
    rw [List.mem_singleton] at hmem
    exact .inl ⟨given, rfl, hmem ▸ hunplaced⟩
  | delete method call => exact absurd hunplaced (placed_of_collected h hrun document hmem)
  | invoke method call =>
    obtain ⟨operation, prepared, -, hrest⟩ := EngineM.runOn_bind_eq_ok_iff.mp hrun
    cases haction : operation.action with
    | delete =>
      rw [haction] at hrest
      exact absurd hunplaced (placed_of_collected h hrest document hmem)
    | _ =>
      rw [haction] at hrest
      cases hrest
      cases hmem
  | deleteAll => exact .inr ⟨rfl, document, mem_of_deleteAll h hrun document hmem, hunplaced⟩
  | _ =>
    cases hrun
    cases hmem

theorem runOn_upsert_unplaced {document : Document} (h : Partition.Unplaced e.metadata document)
    (session : Session σ) :
    (e.upsert document).runOn session = (.error (Partition.required e.metadata), session) := by
  rw [upsert, EngineM.runOn_bind, EngineM.runOn_ofExcept, h]

/-- An engine over a store in memory that records its calls. -/
def recorded (m : EntityMetadata) (config : EngineConfig) : Engine (MemoryStore × List StoreCall) where
  store := memoryStore.recorded
  metadata := m
  config := config

/-- **A request that is refused has not asked the store, and planning never does.** What the store holds
and the calls it has recorded stay as they are. The exception is the removal of everything, which meets
the documents only after it has asked for them. -/
theorem refused_before_store (m : EntityMetadata) (config : EngineConfig)
    (session : Session (MemoryStore × List StoreCall)) (request : Request) :
    (request.isPlanning → (((recorded m config).serve request).runOn session).2.store = session.store) ∧
    ((request.refusal? (((recorded m config).serve request).runOn session).1).isSome →
      (((recorded m config).serve request).runOn session).2.store = session.store ∨
      request = .deleteAll ∧ ∃ document ∈ (session.store.1.entries m.collection).map (·.2),
        Partition.Unplaced m document) := by
  rcases (recorded m config).onlyPlanned_or_served session request with hplanned | ⟨hplanning, hserved⟩
  · exact ⟨fun _ => hplanned.store, fun _ => .inl hplanned.store⟩
  · rw [hplanning]
    refine ⟨nofun, fun hrefused => ?_⟩
    obtain ⟨error, herror⟩ := Option.isSome_iff_exists.mp hrefused
    have hvalidation := Request.isValidation_of_refusal? hplanning herror
    obtain ⟨hmeets, -⟩ := hserved.late error herror hvalidation
    rcases hmeets.upsert_or_deleteAll reads_memoryStore.recorded with
      ⟨document, rfl, hunplaced⟩ | hdeleteAll
    · have hrun := runOn_upsert_unplaced (e := recorded m config) hunplaced session
      rw [serve, hrun]
      exact .inl rfl
    · exact .inr hdeleteAll

theorem refused_before_store_towns :
    let session : Session (MemoryStore × List StoreCall) := { store := (Town.store, []) }
    let run := ((recorded Town.metadata {}).serve (.pointRead "1" none)).runOn session
    Request.refusal? (.pointRead "1" none) run.1 = some (.partitionKeyRequired "towns") ∧
      run.2.store = (Town.store, []) := by
  intro session run
  obtain ⟨-, hrefused⟩ := refused_before_store Town.metadata {} session (.pointRead "1" none)
  refine ⟨rfl, ?_⟩
  rcases hrefused rfl with hstore | ⟨⟨⟩, -⟩
  exact hstore

/-- A removal of everything that is refused for its second document has removed the first one. -/
theorem deleteAll_refused_late :
    let loose := MemoryStore.create {} "towns" none
    let loose := (loose.insert "towns" (Town.document "1" "NO" "Oslo")).2
    let loose := (loose.insert "towns" (.object [("id", .string "2")])).2
    let run := ((recorded Town.metadata {}).serve .deleteAll).runOn { store := (loose, []) }
    Request.refusal? .deleteAll run.1 = some (.partitionKeyRequired "towns") ∧
      run.2.store.2.map (·.name) = ["point_delete", "execute"] ∧
      loose.size "towns" = 2 ∧ run.2.store.1.size "towns" = 1 := by
  refine ⟨rfl, rfl, rfl, rfl⟩

end Engine

end DerivedQuery
