import DerivedQuery.Engine.Basic
import DerivedQuery.Proofs.Engine.Step
import DerivedQuery.Proofs.Failure

/-!
# From a call to a query

A method name that has been prepared before is not parsed again, so what a session takes a name for
depends on what it remembers. `Engine.reading` says what that is, and `Engine.planned` what query a call
has then. Planning a call gives just this, leaves the store alone and takes no name for anything else
than before (`runOn_assemble`, `runOn_assembleFor`); no proof behind it opens `prepare` or `assemble`
again.

The query of a call depends on the page and the sort of the call in its page and its order alone
(`tree_of_plan`), and a call that goes on behind a page has the query of the first call for another page
(`plan_resume`).
-/

namespace DerivedQuery

namespace PageState

theorem choose_eq (defaultSize : Nat) (ofName explicit : Option Sorting)
    (page : Option PageRequest) :
    choose defaultSize ofName explicit page
      = ⟨(page.map (·.size)).getD (max 1 defaultSize), page.bind (·.continuation),
          chooseSort explicit (page.bind (·.sort)) ofName⟩ := by
  cases page with
  | some request => rfl
  | none =>
    rw [choose, Nat.max_comm]
    rfl

theorem sort_choose (defaultSize : Nat) (ofName explicit : Option Sorting)
    (page : Option PageRequest) :
    (choose defaultSize ofName explicit page).sort
      = chooseSort explicit (page.bind (·.sort)) ofName := by
  rw [choose_eq]

/-- An empty order is not taken for one that was asked for. -/
theorem ne_nil_of_filter {order : Option Sorting} {chosen : Sorting}
    (h : order.filter (!·.isEmpty) = some chosen) : chosen ≠ [] := by
  have hsome := (Option.filter_eq_some_iff.mp h).2
  rintro rfl
  cases hsome

/-- A page that was chosen in some order is chosen in this order again if it is asked for in it. -/
theorem chooseSort_again {explicit ofPage again : Option Sorting} {ofName : Sorting}
    (h : again.getD [] = chooseSort explicit ofPage (some ofName)) :
    chooseSort none again (some ofName)
      = chooseSort explicit ofPage (some ofName) := by
  -- An order that was chosen from the call is not empty. Only then does `again` have to win over the
  -- name; else the order is that of the name, and `again` either repeats it or is empty.
  generalize hchosen : chooseSort explicit ofPage (some ofName) = chosen at h ⊢
  cases chosen with
  | cons key keys =>
    cases again with
    | none => cases h
    | some order =>
      rw [Option.getD_some] at h
      subst h
      rfl
  | nil =>
    have hname : ofName = [] := by
      unfold chooseSort at hchosen
      cases hexplicit : explicit.filter (!·.isEmpty) with
      | some order =>
        rw [hexplicit, Option.some_or, Option.getD_some] at hchosen
        exact absurd hchosen (ne_nil_of_filter hexplicit)
      | none =>
        cases hpage : ofPage.filter (!·.isEmpty) with
        | some order =>
          rw [hexplicit, hpage, Option.none_or, Option.some_or, Option.getD_some] at hchosen
          exact absurd hchosen (ne_nil_of_filter hpage)
        | none =>
          rw [hexplicit, hpage, Option.none_or, Option.none_or, Option.getD_some] at hchosen
          exact hchosen
    cases again with
    | none => simpa [chooseSort] using hname
    | some order =>
      rw [Option.getD_some] at h
      subst h hname
      rfl

end PageState

/-- The call for a page of another size and at another token, in the same order. -/
def Call.withPage (call : Call) (size : Nat) (token : Option ContinuationToken) : Call :=
  { call with page := some ⟨size, token, call.page.bind (·.sort)⟩ }

namespace Engine

variable {σ : Type} (e : Engine σ)

/-! ## Names -/

/-- What a session takes a method name for. -/
def reading (session : Session σ) (method : String) : Except QueryError Operation :=
  match session.prepared.lookup method with
  | some operation => .ok operation
  | none => Method.parse e.metadata method

theorem runOn_reject {α : Type} (method : String) (error : QueryError) (session : Session σ) :
    (e.reject method error : EngineM σ α).runOn session = (.error error, { session with
      metrics := { session.metrics with queriesRejected := session.metrics.queriesRejected + 1 }
      journal := ⟨.queryRejected, [("code", error.code), ("entity", e.metadata.typeName),
        ("method", method), ("reason", error.message)]⟩ :: session.journal }) := rfl

/-- A step of planning that succeeds changes nothing. -/
theorem runOn_check_ok {α : Type} (method : String) (a : α) (session : Session σ) :
    (e.check method (.ok a)).runOn session = (.ok a, session) := rfl

/-- A check passes its outcome on and leaves the store and the remembered names alone. -/
theorem runOn_check {α : Type} (method : String) (outcome : Except QueryError α)
    (session : Session σ) :
    ∃ later, (e.check method outcome).runOn session = (outcome, later) ∧ session.Kept later := by
  cases outcome with
  | ok a => exact ⟨session, rfl, .refl⟩
  | error error => exact ⟨_, e.runOn_reject method error session, rfl, rfl⟩

theorem eq_ok_of_check {α : Type} {method : String} {outcome : Except QueryError α} {a : α}
    {session later : Session σ} (h : (e.check method outcome).runOn session = (.ok a, later)) :
    outcome = .ok a := by
  obtain ⟨_, hcheck, -⟩ := e.runOn_check method outcome session
  exact (Prod.mk.inj (hcheck.symm.trans h)).1

/-- The session in which a name has been parsed. -/
def remembering (session : Session σ) (method : String) (operation : Operation) : Session σ :=
  { session with
    metrics := { session.metrics with queriesParsed := session.metrics.queriesParsed + 1 }
    prepared := (method, operation) :: session.prepared
    journal := ⟨.queryParsed, [("action", operation.action.name),
      ("criteria", toString operation.criteria.length), ("entity", e.metadata.typeName),
      ("method", method)]⟩ :: session.journal }

/-- A name that is remembered is not looked at again, any other one is parsed. -/
theorem runOn_prepare (method : String) (session : Session σ) :
    (e.prepare method).runOn session =
      match session.prepared.lookup method with
      | some operation => (.ok operation, session)
      | none =>
        match Method.parse e.metadata method with
        | .ok operation => (.ok operation, e.remembering session method operation)
        | .error error => (e.reject method error : EngineM σ Operation).runOn session := by
  rw [prepare, EngineM.runOn_bind]
  change (match session.prepared.lookup method with | some _ => _ | none => _ : EngineM σ _).runOn
    session = _
  cases session.prepared.lookup method with
  | some operation => rfl
  | none =>
    cases Method.parse e.metadata method with
    | ok operation => rfl
    | error error => rfl

/-- The store is as it was, and every name is taken for what it was. -/
structure Undisturbed (session later : Session σ) : Prop where
  store : later.store = session.store
  reading : ∀ method, e.reading later method = e.reading session method

namespace Undisturbed

variable {e} {session later last : Session σ}

theorem refl : e.Undisturbed session session := ⟨rfl, fun _ => rfl⟩

theorem trans (h : e.Undisturbed session later) (h' : e.Undisturbed later last) :
    e.Undisturbed session last :=
  ⟨h'.store.trans h.store, fun method => (h'.reading method).trans (h.reading method)⟩

/-- What a session remembers decides what it takes names for. -/
theorem of_kept (h : session.Kept later) : e.Undisturbed session later :=
  ⟨h.store, fun method => by rw [Engine.reading, Engine.reading, h.prepared]⟩

end Undisturbed

/-- The session takes every name for what it is parsed to. A new session does. -/
def Faithful (session : Session σ) : Prop :=
  ∀ method, e.reading session method = Method.parse e.metadata method

theorem faithful_new (store : σ) : e.Faithful { store } := fun _ => rfl

theorem Undisturbed.faithful {session later : Session σ} (h : e.Undisturbed session later)
    (hfaithful : e.Faithful session) : e.Faithful later :=
  fun method => (h.reading method).trans (hfaithful method)

/-- Remembering what a name is parsed to does not disturb. -/
theorem undisturbed_remembering {session : Session σ} {method : String} {operation : Operation}
    (hnew : session.prepared.lookup method = none)
    (hparse : Method.parse e.metadata method = .ok operation) :
    e.Undisturbed session (e.remembering session method operation) := by
  refine ⟨rfl, fun name => ?_⟩
  unfold reading remembering
  rw [List.lookup_cons]
  -- The name itself was parsed just now; any other one is looked up behind it.
  by_cases hname : name = method
  · subst hname
    simp [hnew, hparse]
  · simp [beq_false_of_ne hname]

/-- **Preparing a name gives what the session takes it for.** -/
theorem runOn_prepare_eq_reading (method : String) (session : Session σ) :
    ∃ later, (e.prepare method).runOn session = (e.reading session method, later) ∧
      e.Undisturbed session later := by
  rw [runOn_prepare, reading]
  cases hknown : session.prepared.lookup method with
  | some operation => exact ⟨session, rfl, .refl⟩
  | none =>
    cases hparse : Method.parse e.metadata method with
    | error error => exact ⟨_, rfl, .of_kept ⟨rfl, rfl⟩⟩
    | ok operation => exact ⟨_, rfl, e.undisturbed_remembering hknown hparse⟩

/-! ## Queries -/

/-- The query of a call in a session. -/
def planned (session : Session σ) (method : String) (call : Call) : Except QueryError Query := do
  e.plan (← e.reading session method) call

/-- The query of a call that has to have a certain action. -/
def plannedFor (action : Action) (session : Session σ) (method : String) (call : Call) :
    Except QueryError Query := do
  let query ← e.planned session method call
  if query.action = action then .ok query
  else .error (.invalidMethodName method (.otherAction query.action action))

/-- **Assembling a call gives its query and does not disturb the session.** -/
theorem runOn_assemble (method : String) (call : Call) (session : Session σ) :
    ∃ later, (e.assemble method call).runOn session = (e.planned session method call, later) ∧
      e.Undisturbed session later := by
  obtain ⟨prepared, hprepare, hkept⟩ := e.runOn_prepare_eq_reading method session
  rw [assemble, EngineM.runOn_bind, hprepare, planned]
  cases e.reading session method with
  | error error => exact ⟨prepared, rfl, hkept⟩
  | ok operation =>
    obtain ⟨checked, hcheck, hsame⟩ := e.runOn_check method (e.plan operation call) prepared
    have hchecked := hkept.trans (.of_kept hsame)
    simp only [EngineM.runOn_bind, hcheck]
    change ∃ later, _ = (e.plan operation call, later) ∧ _
    cases e.plan operation call with
    | error error => exact ⟨checked, rfl, hchecked⟩
    | ok query => exact ⟨_, rfl, hchecked.trans (.of_kept ⟨rfl, rfl⟩)⟩

theorem planned_of_assemble {method : String} {call : Call} {query : Query}
    {session assembled : Session σ}
    (h : (e.assemble method call).runOn session = (.ok query, assembled)) :
    e.planned session method call = .ok query := by
  obtain ⟨_, hassemble, -⟩ := e.runOn_assemble method call session
  rw [h] at hassemble
  exact (Prod.mk.inj hassemble).1.symm

theorem runOn_assembleFor (action : Action) (method : String) (call : Call) (session : Session σ) :
    ∃ later, (e.assembleFor action method call).runOn session
        = (e.plannedFor action session method call, later) ∧
      e.Undisturbed session later := by
  obtain ⟨assembled, hassemble, hkept⟩ := e.runOn_assemble method call session
  rw [assembleFor, EngineM.runOn_bind, hassemble, plannedFor]
  cases e.planned session method call with
  | error error => exact ⟨assembled, rfl, hkept⟩
  | ok query =>
    simp only [ok_bind]
    by_cases haction : query.action = action
    · simp only [haction, ↓reduceIte]
      exact ⟨assembled, rfl, hkept⟩
    · simp only [haction, ↓reduceIte]
      exact ⟨_, rfl, hkept.trans (.of_kept ⟨rfl, rfl⟩)⟩

theorem plannedFor_eq_ok_iff {action : Action} {session : Session σ} {method : String} {call : Call}
    {query : Query} :
    e.plannedFor action session method call = .ok query ↔
      e.planned session method call = .ok query ∧ query.action = action := by
  rw [plannedFor, bind_eq_ok_iff]
  constructor
  · rintro ⟨found, hplanned, haction⟩
    split at haction
    · next h =>
      cases haction
      exact ⟨hplanned, h⟩
    · cases haction
  · rintro ⟨hplanned, haction⟩
    exact ⟨query, hplanned, if_pos haction⟩

/-- A call that has a query of the asked action gets it. -/
theorem runOn_assembleFor_ok {action : Action} {session : Session σ} {method : String} {call : Call}
    {query : Query} (hplanned : e.planned session method call = .ok query)
    (haction : query.action = action) :
    ∃ later, (e.assembleFor action method call).runOn session = (.ok query, later) ∧
      e.Undisturbed session later := by
  obtain ⟨later, hassemble, hkept⟩ := e.runOn_assembleFor action method call session
  rw [e.plannedFor_eq_ok_iff.mpr ⟨hplanned, haction⟩] at hassemble
  exact ⟨later, hassemble, hkept⟩

/-! ## What a query is made of -/

/-- A call is planned if its sort is supported, it has as many arguments as the operation takes, and
they can be bound. -/
theorem plan_eq_ok_iff {operation : Operation} {call : Call} {query : Query} :
    e.plan operation call = .ok query ↔
      ∃ order predicates,
        Capability.validate e.metadata operation (PageState.choose e.config.defaultPageSize
          (some operation.order) call.sort call.page).sort = .ok order ∧
        operation.arity = call.arguments.length ∧
        Query.bind e.metadata operation.criteria call.arguments = .ok predicates ∧
        query = {
          collection := e.metadata.collection
          projection := e.metadata.typeName
          action := operation.action
          tree := ⟨operation.connector, predicates⟩
          order
          page := PageState.choose e.config.defaultPageSize (some operation.order) call.sort
            call.page } := by
  simp only [plan, Query.assemble, bind_eq_ok_iff, ite_error_eq_ok_iff, ne_eq, Decidable.not_not,
    Except.ok.injEq, eq_comm (a := query)]
  constructor
  · rintro ⟨order, horder, harity, predicates, hbind, rfl⟩
    exact ⟨order, predicates, horder, harity, hbind, rfl⟩
  · rintro ⟨order, predicates, horder, harity, hbind, rfl⟩
    exact ⟨order, horder, harity, predicates, hbind, rfl⟩

theorem collection_of_plan {operation : Operation} {call : Call} {query : Query}
    (h : e.plan operation call = .ok query) : query.collection = e.metadata.collection := by
  obtain ⟨_, _, _, _, _, rfl⟩ := e.plan_eq_ok_iff.mp h
  rfl

theorem collection_of_planned {session : Session σ} {method : String} {call : Call} {query : Query}
    (h : e.planned session method call = .ok query) : query.collection = e.metadata.collection := by
  obtain ⟨operation, -, hplan⟩ := bind_eq_ok_iff.mp h
  exact e.collection_of_plan hplan

theorem action_of_plan {operation : Operation} {call : Call} {query : Query}
    (h : e.plan operation call = .ok query) : query.action = operation.action := by
  obtain ⟨_, _, _, _, _, rfl⟩ := e.plan_eq_ok_iff.mp h
  rfl

theorem page_of_plan {operation : Operation} {call : Call} {query : Query}
    (h : e.plan operation call = .ok query) :
    query.page = PageState.choose e.config.defaultPageSize (some operation.order) call.sort
      call.page := by
  obtain ⟨_, _, _, _, _, rfl⟩ := e.plan_eq_ok_iff.mp h
  rfl

/-- **A call that goes on in the order of a query has that query for another page.** -/
theorem plan_resume {operation : Operation} {call : Call} {query : Query} {request : PageRequest}
    (h : e.plan operation call = .ok query) (hsort : request.sort.getD [] = query.page.sort) :
    e.plan operation { arguments := call.arguments, page := some request }
      = .ok (query.withPage ⟨request.size, request.continuation, query.page.sort⟩) := by
  have hpage := e.page_of_plan h
  obtain ⟨order, predicates, horder, harity, hbind, rfl⟩ := e.plan_eq_ok_iff.mp h
  have hagain : PageState.choose e.config.defaultPageSize (some operation.order) none (some request)
      = ⟨request.size, request.continuation, (PageState.choose e.config.defaultPageSize
          (some operation.order) call.sort call.page).sort⟩ := by
    rw [PageState.sort_choose] at hsort ⊢
    simp only [PageState.choose, Option.bind_some, PageState.chooseSort_again hsort]
  rw [e.plan_eq_ok_iff]
  refine ⟨order, predicates, ?_, harity, hbind, ?_⟩
  · rw [hagain]
    exact horder
  · rw [hagain]
    rfl

end Engine

end DerivedQuery
