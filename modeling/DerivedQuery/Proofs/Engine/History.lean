import DerivedQuery.Proofs.Engine.Explain
import DerivedQuery.Proofs.Engine.Fleet

/-!
# Planning and what came before it

An engine remembers the names that it has parsed, so what it answers could depend on what it was asked
before. It does not: a name is only remembered for what it is parsed to (`Engine.Remembers.faithful`),
and what a session takes names for is all that the answer to a planning request depends on
(`Engine.prepare_answer` and the lemmas behind it).

So behind any run of requests and steps of walks, of one engine or of several that share their stores and
counters, and whether the stores answered or failed, planning gives what it gives in a new engine
(`Fleet.planning_forgets_history`).
-/

namespace DerivedQuery

namespace Engine

variable {σ τ : Type} (e : Engine σ)

/-- The engine for the same entity, with the same configuration, over another store. -/
def onStore (store : DocumentStore τ) : Engine τ where
  store
  metadata := e.metadata
  config := e.config

/-! ## Answers to planning requests -/

section Answers

variable (method : String) (call : Call) (session : Session σ)

theorem prepare_answer : ((e.prepare method).runOn session).1 = e.reading session method := by
  obtain ⟨later, hprepare, -⟩ := e.runOn_prepare_eq_reading method session
  rw [hprepare]

theorem assemble_answer :
    ((e.assemble method call).runOn session).1 = e.planned session method call := by
  obtain ⟨later, hassemble, -⟩ := e.runOn_assemble method call session
  rw [hassemble]

theorem render_answer :
    ((e.render method call).runOn session).1 = (e.planned session method call).map Sql.render := by
  obtain ⟨later, hassemble, -⟩ := e.runOn_assemble method call session
  rw [render, EngineM.runOn_bind, hassemble]
  cases e.planned session method call with
  | ok query => rfl
  | error error => rfl

theorem explain_answer :
    ((e.explain method call).runOn session).1 =
      .ok (match e.planned session method call with
        | .ok query => .accepted query (Partition.resolve? e.metadata query.tree)
        | .error error => .rejected error) := by
  obtain ⟨later, hexplain⟩ := e.runOn_explain_planned method call session
  exact congrArg Prod.fst hexplain

end Answers

variable {e} {session : Session σ}

/-! ## Remembered names -/

/-- An engine that remembers names for what they are parsed to takes every name for that. -/
theorem Remembers.faithful {asked : List String} (h : e.Remembers asked session.prepared) :
    e.Faithful session := by
  intro method
  rw [reading]
  cases hknown : session.prepared.lookup method with
  | none => rfl
  | some operation =>
    exact ((h.mem_iff method operation).mp (Entries.mem_of_lookup_eq_some hknown)).2.symm

/-- A session that takes every name for what it is parsed to plans like a new one. -/
theorem Faithful.planned_onStore (h : e.Faithful session) (store : DocumentStore τ) (state : τ)
    (method : String) (call : Call) :
    e.planned session method call = (e.onStore store).planned { store := state } method call := by
  rw [planned, planned, h method, (e.onStore store).faithful_new state method]
  rfl

/-- A name that cannot be parsed is not remembered: it is refused each time. -/
theorem Remembers.runOn_prepare_of_error {asked : List String}
    (h : e.Remembers asked session.prepared) {method : String} {error : QueryError}
    (hparse : Method.parse e.metadata method = .error error) :
    (e.prepare method).runOn session = (e.reject method error : EngineM σ Operation).runOn session := by
  rw [runOn_prepare, hparse]
  cases hknown : session.prepared.lookup method with
  | none => rfl
  | some operation =>
    have hparsed := ((h.mem_iff method operation).mp (Entries.mem_of_lookup_eq_some hknown)).2
    cases hparse.symm.trans hparsed

end Engine

namespace Fleet

variable {ι σ τ : Type} [DecidableEq ι]

/-- **Planning does not depend on history.** The engines begin with no names; whatever they have done
since, each of them prepares, assembles, renders and explains all calls as a new engine for the same
entity and with the same configuration does, over whatever store. What is remembered of a name is what it
is parsed to, and a name that cannot be parsed is parsed and refused each time. -/
theorem planning_forgets_history (engines : ι → Engine σ) (start : Fleet ι σ) (acts : List (Act ι))
    (i : ι) (store : DocumentStore τ) (state : τ) :
    let fleet := run engines { start with prepared := fun _ => [] } acts
    let e := engines i
    let used := fleet.session i
    let fresh := e.onStore store
    let new : Session τ := { store := state }
    (∀ method, ((e.prepare method).runOn used).1 = ((fresh.prepare method).runOn new).1) ∧
    (∀ method call,
      ((e.assemble method call).runOn used).1 = ((fresh.assemble method call).runOn new).1) ∧
    (∀ method call,
      ((e.render method call).runOn used).1 = ((fresh.render method call).runOn new).1) ∧
    (∀ method call,
      ((e.explain method call).runOn used).1 = ((fresh.explain method call).runOn new).1) ∧
    (∀ entry ∈ fleet.prepared i, Method.parse e.metadata entry.1 = .ok entry.2) ∧
    ∀ method error, Method.parse e.metadata method = .error error →
      (e.prepare method).runOn used = (e.reject method error : EngineM σ Operation).runOn used := by
  intro fleet e used fresh new
  have hremembers : e.Remembers (acts.filterMap (Act.method? engines i)) used.prepared :=
    remembers_run rfl acts
  have hplanned := hremembers.faithful.planned_onStore store state
  refine ⟨fun method => ?_, fun method call => ?_, fun method call => ?_, fun method call => ?_,
    fun entry hentry => ?_, fun method error hparse => hremembers.runOn_prepare_of_error hparse⟩
  · rw [e.prepare_answer, fresh.prepare_answer, hremembers.faithful method,
      fresh.faithful_new state method]
    rfl
  · rw [e.assemble_answer, fresh.assemble_answer, hplanned method call]
  · rw [e.render_answer, fresh.render_answer, hplanned method call]
  · rw [e.explain_answer, fresh.explain_answer, hplanned method call]
    rfl
  · exact ((hremembers.mem_iff entry.1 entry.2).mp hentry).2

end Fleet

end DerivedQuery
