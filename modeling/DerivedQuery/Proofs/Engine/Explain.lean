import DerivedQuery.Proofs.Engine.Refusal

/-!
# What a plan says of a call

Explaining a call plans it and stops there, running it plans it and goes on. Both have the same query
(`Engine.runOn_explain_planned`, `Engine.runOn_invoke`), so they part only behind planning, where a
removal asks for the partition that its predicates pin. A plan tells the partition, but is accepted
without one.
-/

namespace DerivedQuery

/-- The plan is for a removal whose predicates do not pin the partition of the entity. -/
def ExplainPlan.isUnpinnedRemoval (m : EntityMetadata) : ExplainPlan → Bool
  | accepted query partition => query.action == .delete && (m.isPartitioned && partition.isNone)
  | rejected _ => false

/-- A partition that has to be pinned is missing, or predicates have what they need. -/
theorem Partition.require_eq (m : EntityMetadata) (tree : PredicateTree) :
    Partition.require m tree =
      if m.isPartitioned && (Partition.resolve? m tree).isNone then .error (Partition.required m)
      else .ok (Partition.resolve? m tree) := by
  cases hkey : m.partitionKey with
  | none => simp [require, resolve?, EntityMetadata.isPartitioned, hkey]
  | some key =>
    cases hresolve : resolve? m tree with
    | none => simp [require, EntityMetadata.isPartitioned, hkey, hresolve]
    | some binding => simp [require, EntityMetadata.isPartitioned, hkey, hresolve]

namespace ExplainPlan

variable {m : EntityMetadata} {query : Query}

theorem require_of_unpinned
    (h : (accepted query (Partition.resolve? m query.tree)).isUnpinnedRemoval m) :
    query.action = .delete ∧
      Partition.require m query.tree = .error (Partition.required m) := by
  rw [isUnpinnedRemoval, Bool.and_eq_true, beq_iff_eq] at h
  obtain ⟨hdelete, hunpinned⟩ := h
  refine ⟨hdelete, ?_⟩
  rw [Partition.require_eq, hunpinned]
  rfl

theorem require_of_not_unpinned
    (h : (accepted query (Partition.resolve? m query.tree)).isUnpinnedRemoval m = false)
    (hdelete : query.action = .delete) :
    ∃ partition, Partition.require m query.tree = .ok partition := by
  rw [isUnpinnedRemoval, hdelete, beq_self_eq_true, Bool.true_and] at h
  refine ⟨Partition.resolve? m query.tree, ?_⟩
  rw [Partition.require_eq, h]
  rfl

end ExplainPlan

namespace Engine

variable {σ : Type} (e : Engine σ) (method : String) (call : Call) (session : Session σ)

theorem onlyRefuses_planned : OnlyRefuses (e.planned session method call) := by
  have hreading : OnlyRefuses (e.reading session method) := by
    unfold reading
    split
    · exact .ok _
    · exact Method.onlyRefuses_parse e.metadata method
  refine hreading.bind ?_
  intro operation
  exact e.onlyRefuses_plan operation call

/-- **A plan tells what the call is planned to.** -/
theorem runOn_explain_planned :
    ∃ later, (e.explain method call).runOn session =
      (.ok (match e.planned session method call with
        | .ok query => .accepted query (Partition.resolve? e.metadata query.tree)
        | .error error => .rejected error), later) := by
  obtain ⟨later, hassemble, -⟩ := e.runOn_assemble method call session
  refine ⟨later, ?_⟩
  rw [runOn_explain, hassemble]
  cases e.planned session method call with
  | ok query => rfl
  | error error => rfl

/-! ## Running a call -/

/-- What a call does with its query. -/
def act (query : Query) : (action : Action) → EngineM σ (Outcome Document)
  | .find => do return .found (← EngineM.fetchPage e.store query)
  | .exists => do return .exists (← EngineM.probe e.store query)
  | .count => do return .count (← EngineM.countMatches e.store query)
  | .delete => do
    let _ ← e.check method (Partition.require e.metadata query.tree)
    return .deleted (← e.deleteMatches query)

theorem invoke_eq :
    e.invoke method call = (do
      let operation ← e.prepare method
      let query ← e.assembleFor operation.action method call
      e.act method query operation.action) := by
  rw [invoke]
  refine congrArg (e.prepare method >>= ·) (funext fun operation => ?_)
  cases operation.action with
  | find => simp only [find, act, bind_assoc]
  | «exists» => simp only [hasMatch, act, bind_assoc]
  | count => simp only [count, act, bind_assoc]
  | delete => simp only [delete, act, bind_assoc]

/-- **Running a call does what it is planned to.** -/
theorem runOn_invoke :
    ∃ later, e.Undisturbed session later ∧ (e.invoke method call).runOn session =
      match e.planned session method call with
      | .ok query => (e.act method query query.action).runOn later
      | .error error => (.error error, later) := by
  obtain ⟨prepared, hprepare, hkept⟩ := e.runOn_prepare_eq_reading method session
  rw [invoke_eq, EngineM.runOn_bind, hprepare, planned]
  cases hreading : e.reading session method with
  | error error => exact ⟨prepared, hkept, rfl⟩
  | ok operation =>
    obtain ⟨assembled, hassemble, hkept'⟩ :=
      e.runOn_assembleFor operation.action method call prepared
    refine ⟨assembled, hkept.trans hkept', ?_⟩
    rw [ok_bind]
    dsimp only
    rw [EngineM.runOn_bind, hassemble, plannedFor, planned, hkept.reading, hreading, ok_bind]
    cases hplan : e.plan operation call with
    | error error => rfl
    | ok query =>
      -- The name has been prepared, so the query is for the action that is asked.
      rw [ok_bind, if_pos (e.action_of_plan hplan)]
      dsimp only
      rw [e.action_of_plan hplan]

/-- Nothing is refused behind planning if all documents that are met name their partitions. -/
theorem serves_act {e : Engine σ} {memory : σ → MemoryStore} (h : e.store.Reads memory)
    {query : Query} (hpinned : query.action = .delete →
      ∃ partition, Partition.require e.metadata query.tree = .ok partition) :
    e.Serves False (e.act method query query.action) session := by
  cases haction : query.action with
  | find =>
    refine (e.serves_fetchPage False query).bind ?_
    intro page _ _
    exact EngineM.runs_pure (Outcome.found page)
  | «exists» =>
    refine (e.serves_probe False query).bind ?_
    intro answer _ _
    exact EngineM.runs_pure (Outcome.exists answer)
  | count =>
    refine (e.serves_countMatches False query).bind ?_
    intro number _ _
    exact EngineM.runs_pure (Outcome.count number)
  | delete =>
    obtain ⟨partition, hrequire⟩ := hpinned haction
    have hdelete : e.Serves False (e.deleteMatches query) session := by
      refine e.serves_deleteMatches False ?_
      intro found later hgather document hmem
      have hselected := List.mem_filter.mp (mem_of_gather h hgather document hmem)
      exact Partition.placed_of_require hrequire hselected.2
    rw [act, hrequire]
    refine hdelete.bind ?_
    intro number _ _
    exact EngineM.runs_pure (Outcome.deleted number)

/-- A removal whose predicates do not pin the partition is refused for that. -/
theorem runOn_act_unpinned {e : Engine σ} (query : Query) (hdelete : query.action = .delete)
    (hunpinned : Partition.require e.metadata query.tree = .error (Partition.required e.metadata)) :
    ((e.act method query query.action).runOn session).1
      = .error (Partition.required e.metadata) := by
  rw [hdelete, act, hunpinned]
  rfl

/-- A request that only goes on behind planning is not refused. -/
theorem refusal?_of_serves {e : Engine σ} {session : Session σ} {request : Request}
    (hplanning : request.isPlanning = false) {work : EngineM σ request.Answer}
    (h : e.Serves False work session) : request.refusal? (work.runOn session).1 = none := by
  have hlate := (served_of_chain h).late
  cases hrefused : request.refusal? (work.runOn session).1 with
  | none => rfl
  | some error =>
    rw [Request.refusal?_of_not_planning hplanning] at hrefused
    obtain ⟨hfault, hvalidation⟩ := Option.filter_eq_some_iff.mp hrefused
    rw [Request.fault?_of_not_planning hplanning] at hfault
    exact (hlate error hfault hvalidation).1.elim

/-- **A plan is accepted if the call is not refused when it is run, and is rejected with the error that
running it gives.** Running may take place over any store and later on, as long as the names are taken for
the same. The exception is a removal whose predicates do not pin the partition: its plan is accepted,
running it is refused. -/
theorem explain_agrees_with_invoke (m : EntityMetadata) (config : EngineConfig) (method : String)
    (call : Call) (session other : Session MemoryStore)
    (hsame : ∀ name, (inMemory m config).reading other name = (inMemory m config).reading session name) :
    ∃ plan later, ((inMemory m config).explain method call).runOn session = (.ok plan, later) ∧
      (plan.isUnpinnedRemoval m = false →
        (plan.isAccepted ↔ Request.refusal? (.invoke method call)
          (((inMemory m config).invoke method call).runOn other).1 = none)) ∧
      (plan.isUnpinnedRemoval m → plan.isAccepted ∧
        (((inMemory m config).invoke method call).runOn other).1 = .error (Partition.required m)) ∧
      ∀ error, plan = .rejected error →
        (((inMemory m config).invoke method call).runOn other).1 = .error error := by
  obtain ⟨later, hexplain⟩ := (inMemory m config).runOn_explain_planned method call session
  obtain ⟨invoked, -, hinvoke⟩ := (inMemory m config).runOn_invoke method call other
  have hplanned : (inMemory m config).planned other method call
      = (inMemory m config).planned session method call := by
    rw [planned, planned, hsame]
  have honly := (inMemory m config).onlyRefuses_planned method call session
  have hmetadata : (inMemory m config).metadata = m := rfl
  rw [hplanned] at hinvoke
  rw [hmetadata] at hexplain
  refine ⟨_, later, hexplain, ?_⟩
  rw [hinvoke]
  cases hquery : (inMemory m config).planned session method call with
  | error error =>
    have hrefused : Request.refusal? (.invoke method call) (.error error) = some error := by
      rw [Request.refusal?_of_not_planning rfl]
      exact Option.filter_eq_some_iff.mpr ⟨rfl, honly error hquery⟩
    refine ⟨fun _ => ⟨?_, ?_⟩, ?_, ?_⟩
    · intro haccepted
      cases haccepted
    · intro hnone
      cases hrefused.symm.trans hnone
    · intro hunpinned
      cases hunpinned
    · rintro _ ⟨⟩
      rfl
  | ok query =>
    dsimp only
    refine ⟨fun hpinned => ⟨fun _ => ?_, fun _ => rfl⟩, fun hunpinned => ⟨rfl, ?_⟩, ?_⟩
    · have hplanning : (Request.invoke method call).isPlanning = false := rfl
      have hrequire := ExplainPlan.require_of_not_unpinned hpinned
      exact refusal?_of_serves hplanning (serves_act method invoked reads_memoryStore hrequire)
    · obtain ⟨hdelete, hrequire⟩ := ExplainPlan.require_of_unpinned hunpinned
      exact runOn_act_unpinned method invoked query hdelete hrequire
    · intro error hrejected
      cases hrejected

theorem explain_agrees_with_invoke_towns :
    let e := inMemory Town.metadata {}
    let session : Session MemoryStore := { store := Town.store }
    let other : Session MemoryStore := { store := {} }
    let call : Call := { arguments := [.string "NO"] }
    (∃ plan later, (e.explain "deleteByCountry" call).runOn session = (.ok plan, later) ∧
      plan.isAccepted ∧ Request.refusal? (.invoke "deleteByCountry" call)
        ((e.invoke "deleteByCountry" call).runOn other).1 = none) ∧
    ∃ error later, (e.explain "deleteByCountry" {}).runOn session = (.ok (.rejected error), later) ∧
      ((e.invoke "deleteByCountry" {}).runOn other).1 = .error error := by
  intro e session other call
  have hmetadata : e.metadata = Town.metadata := rfl
  have hparse : Method.parse Town.metadata "deleteByCountry" = .ok ⟨"deleteByCountry", .delete, {},
      .and, [⟨⟨["country"], .string⟩, .equal, false⟩], []⟩ := by with_unfolding_all rfl
  constructor
  · have hplanned : e.planned session "deleteByCountry" call = .ok {
        collection := "towns", projection := "Town", action := .delete, tree := ⟨.and, [Town.norway]⟩
        order := none, page := ⟨100, none, []⟩ } := by
      rw [planned, faithful_new, hmetadata, hparse]
      rfl
    obtain ⟨plan, later, hexplain, hagrees, -⟩ :=
      explain_agrees_with_invoke Town.metadata {} "deleteByCountry" call session other fun _ => rfl
    obtain ⟨_, hplan⟩ := e.runOn_explain_planned "deleteByCountry" call session
    rw [hplanned, hexplain] at hplan
    cases hplan
    exact ⟨_, later, hexplain, rfl, (hagrees rfl).mp rfl⟩
  · have hplanned : e.planned session "deleteByCountry" {}
        = .error (.argumentCount "deleteByCountry" 1 0) := by
      rw [planned, faithful_new, hmetadata, hparse]
      rfl
    obtain ⟨plan, later, hexplain, -, -, hrejected⟩ :=
      explain_agrees_with_invoke Town.metadata {} "deleteByCountry" {} session other fun _ => rfl
    obtain ⟨_, hplan⟩ := e.runOn_explain_planned "deleteByCountry" {} session
    rw [hplanned, hexplain] at hplan
    cases hplan
    exact ⟨_, later, hexplain, hrejected _ rfl⟩

/-- The plan for the removal of a town by its name is accepted, the removal itself is refused. -/
theorem explain_accepts_unpinned_removal :
    let e := inMemory Town.metadata {}
    let session : Session MemoryStore := { store := Town.store }
    let call : Call := { arguments := [.string "Oslo"] }
    (∃ plan later, (e.explain "deleteByName" call).runOn session = (.ok plan, later) ∧
      plan.isAccepted) ∧
    Request.refusal? (.invoke "deleteByName" call) ((e.invoke "deleteByName" call).runOn session).1
      = some (.partitionKeyRequired "towns") := by
  intro e session call
  have hmetadata : e.metadata = Town.metadata := rfl
  have hparse : Method.parse Town.metadata "deleteByName" = .ok ⟨"deleteByName", .delete, {},
      .and, [⟨⟨["name"], .string⟩, .equal, false⟩], []⟩ := by with_unfolding_all rfl
  let named : Predicate := ⟨⟨["name"], .string⟩, "name", .equal, false, [.string "Oslo"]⟩
  let query : Query := {
    collection := "towns", projection := "Town", action := .delete, tree := ⟨.and, [named]⟩
    order := none, page := ⟨100, none, []⟩ }
  have hplanned : e.planned session "deleteByName" call = .ok query := by
    rw [planned, faithful_new, hmetadata, hparse]
    rfl
  obtain ⟨later, hexplain⟩ := e.runOn_explain_planned "deleteByName" call session
  obtain ⟨invoked, -, hinvoke⟩ := e.runOn_invoke "deleteByName" call session
  have hrefused := runOn_act_unpinned (e := e) "deleteByName" invoked query rfl rfl
  rw [hplanned] at hexplain hinvoke
  refine ⟨⟨_, later, hexplain, rfl⟩, ?_⟩
  rw [hinvoke]
  dsimp only
  rw [hrefused]
  rfl

end Engine

end DerivedQuery
