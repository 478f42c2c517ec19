import DerivedQuery.Predicate.Eval
import DerivedQuery.Proofs.Engine.Planning

/-!
# Arguments and the predicates that take them

The criteria of an operation take the arguments of a call from left to right, each as many as its
operator needs, and together they take all of them (`Query.of_bind`). So an accepted call has one
predicate for each criterion, which differs from it in its values alone, and the values of all predicates
one behind the other are the arguments (`Engine.exists_reading_of_planned`).
-/

namespace DerivedQuery

/-! ## Predicates of calls -/

namespace Predicate

/-- The criterion that the predicate is bound to. -/
def criterion (predicate : Predicate) : Criterion :=
  ⟨predicate.property, predicate.operator, predicate.ignoreCase⟩

/-- The predicate takes as many values as its operator does and ignores case only where it can. -/
structure WellFormed (predicate : Predicate) : Prop where
  length_values : predicate.values.length = predicate.operator.arity
  isArray : predicate.operator.takesArray → ∀ value ∈ predicate.values, isArray value
  isTextual : predicate.ignoreCase → predicate.property.type.isTextual
  supportsIgnoreCase : predicate.ignoreCase → predicate.operator.supportsIgnoreCase

end Predicate

/-! ## Planning steps -/

namespace Query

variable {m : EntityMetadata}

theorem bindCriterion_eq_ok_iff {criterion : Criterion} {values : List Json} {predicate : Predicate} :
    bindCriterion m criterion values = .ok predicate ↔
      (criterion.operator.takesArray → ∀ value ∈ values, Predicate.isArray value) ∧
      predicate = {
        property := criterion.property
        field := m.documentField criterion.property
        operator := criterion.operator
        ignoreCase := criterion.ignoreCase
        values } := by
  change (if (criterion.operator.takesArray && !values.all Predicate.isArray) = true then _ else _) = _
    ↔ _
  rw [ite_error_eq_ok_iff, Except.ok.injEq, eq_comm (b := predicate)]
  refine and_congr_left fun _ => ?_
  cases criterion.operator.takesArray <;> simp

/-- **Criteria take all arguments, in order.** -/
theorem of_bind {criteria : List Criterion} {arguments : List Json} {predicates : List Predicate}
    (harity : criteria.foldr (·.operator.arity + ·) 0 = arguments.length)
    (h : bind m criteria arguments = .ok predicates) :
    predicates.map Predicate.criterion = criteria ∧
    predicates.flatMap (·.values) = arguments ∧
    ∀ predicate ∈ predicates,
      predicate.field = m.documentField predicate.property ∧
      predicate.values.length = predicate.operator.arity ∧
      (predicate.operator.takesArray → ∀ value ∈ predicate.values, Predicate.isArray value) := by
  induction criteria generalizing arguments predicates with
  | nil =>
    cases h
    refine ⟨rfl, (List.length_eq_zero_iff.mp harity.symm).symm, ?_⟩
    intro predicate hmem
    cases hmem
  | cons criterion rest ih =>
    obtain ⟨predicate, hpredicate, h⟩ := bind_eq_ok_iff.mp h
    obtain ⟨others, hothers, ⟨⟩⟩ := bind_eq_ok_iff.mp h
    obtain ⟨harray, rfl⟩ := bindCriterion_eq_ok_iff.mp hpredicate
    rw [List.foldr_cons] at harity
    -- What the first criterion leaves is what the others take.
    have hrest : rest.foldr (·.operator.arity + ·) 0
        = (arguments.drop criterion.operator.arity).length := by
      rw [List.length_drop]
      omega
    obtain ⟨hcriteria, hvalues, hbound⟩ := ih hrest hothers
    refine ⟨?_, ?_, ?_⟩
    · rw [List.map_cons, hcriteria]
      rfl
    · rw [List.flatMap_cons, hvalues]
      exact List.take_append_drop _ _
    · refine List.forall_mem_cons.mpr ⟨⟨rfl, ?_, harray⟩, hbound⟩
      exact List.length_take_of_le (by omega)

end Query

namespace Capability

variable {m : EntityMetadata}

theorem checkCriterion_eq_ok_iff {criterion : Criterion} :
    checkCriterion m criterion = .ok () ↔
      (m.properties.resolve? criterion.property.dotted).isSome ∧
      (criterion.ignoreCase →
        criterion.property.type.isTextual ∧ criterion.operator.supportsIgnoreCase) := by
  unfold checkCriterion
  dsimp only
  rw [ite_error_eq_ok_iff, Option.isNone_iff_eq_none, ← ne_eq, Option.ne_none_iff_isSome]
  refine and_congr_right fun _ => ?_
  cases criterion.ignoreCase with
  | false => simp
  | true => simp [ite_error_eq_ok_iff]

theorem validate_eq_ok_iff {operation : Operation} {sort : Sorting} {order : Option OrderKey} :
    validate m operation sort = .ok order ↔
      operation.subject.limit = none ∧
      (∀ criterion ∈ operation.criteria, checkCriterion m criterion = .ok ()) ∧
      resolveSort m sort = .ok order := by
  have hlimit : checkLimit operation = .ok () ↔ operation.subject.limit = none := by
    unfold checkLimit
    cases operation.subject.limit <;> simp
  rw [validate, bind_eq_ok_iff]
  constructor
  · rintro ⟨⟨⟩, hlimited, h⟩
    obtain ⟨⟨⟩, hchecked, hsort⟩ := bind_eq_ok_iff.mp h
    exact ⟨hlimit.mp hlimited, forM_eq_ok_iff.mp hchecked, hsort⟩
  · rintro ⟨hlimited, hchecked, hsort⟩
    exact ⟨(), hlimit.mpr hlimited, bind_eq_ok_iff.mpr ⟨(), forM_eq_ok_iff.mpr hchecked, hsort⟩⟩

end Capability

/-! ## Accepted calls -/

namespace Engine

variable {σ : Type} {e : Engine σ} {session : Session σ} {method : String} {call : Call}
  {query : Query}

/-- **An accepted call hands its arguments to the criteria of its name, in order.** -/
theorem exists_reading_of_planned (h : e.planned session method call = .ok query) :
    ∃ operation, e.reading session method = .ok operation ∧
      query.action = operation.action ∧
      query.tree.connector = operation.connector ∧
      query.tree.predicates.map Predicate.criterion = operation.criteria ∧
      query.tree.predicates.flatMap (·.values) = call.arguments ∧
      ∀ predicate ∈ query.tree.predicates,
        predicate.field = e.metadata.documentField predicate.property ∧ predicate.WellFormed := by
  obtain ⟨operation, hreading, hplan⟩ := bind_eq_ok_iff.mp h
  obtain ⟨order, predicates, hvalidate, harity, hbind, rfl⟩ := e.plan_eq_ok_iff.mp hplan
  obtain ⟨hcriteria, hvalues, hbound⟩ := Query.of_bind harity hbind
  obtain ⟨-, hchecked, -⟩ := Capability.validate_eq_ok_iff.mp hvalidate
  refine ⟨operation, hreading, rfl, rfl, hcriteria, hvalues, ?_⟩
  intro predicate hmem
  obtain ⟨hfield, hlength, harray⟩ := hbound predicate hmem
  -- The predicate ignores case because its criterion does, which has been checked.
  have hcriterion : predicate.criterion ∈ operation.criteria := by
    rw [← hcriteria]
    exact List.mem_map_of_mem hmem
  obtain ⟨-, hcase⟩ := Capability.checkCriterion_eq_ok_iff.mp (hchecked _ hcriterion)
  exact ⟨hfield, hlength, harray, fun hignore => (hcase hignore).1, fun hignore => (hcase hignore).2⟩

/-- A session that takes names for what they are parsed to plans with that. -/
theorem Faithful.planned_eq (h : e.Faithful session) {operation : Operation}
    (hparse : Method.parse e.metadata method = .ok operation) :
    e.planned session method call = e.plan operation call := by
  rw [planned, h method, hparse, ok_bind]

theorem wellFormed_of_planned (h : e.planned session method call = .ok query) :
    ∀ predicate ∈ query.tree.predicates, predicate.WellFormed := by
  obtain ⟨_, -, -, -, -, -, hpredicates⟩ := exists_reading_of_planned h
  intro predicate hmem
  exact (hpredicates predicate hmem).2

end Engine

end DerivedQuery
