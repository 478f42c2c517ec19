import Mathlib.Order.Bounds.Basic
import DerivedQuery.Proofs.Plan.Binding

/-!
# Handing out arguments

The arguments of the criterion at a position stand behind those of the criteria before it. They do not fit
if the operator searches in an array and is given something else (`Query.Misfit`). Out of as many
arguments as its criteria take a query is assembled that has them all, in order, or the first criterion
whose argument does not fit is reported (`Query.bind_eq_ok_or_error`, `Query.assemble_hands_out`).
-/

namespace DerivedQuery.Query

variable {m : EntityMetadata} {criterion : Criterion} {criteria : List Criterion}
  {arguments : List Json} {position : Nat}

/-! ## Arguments that do not fit -/

/-- How many arguments criteria take. -/
def arity (criteria : List Criterion) : Nat := criteria.foldr (·.operator.arity + ·) 0

/-- The criterion at the position searches in an array, but its argument is none. -/
def Misfit (criteria : List Criterion) (arguments : List Json) (position : Nat) : Prop :=
  ∃ criterion argument, criteria[position]? = some criterion ∧
    (criterion.operator = .isIn ∨ criterion.operator = .notIn) ∧
    arguments[arity (criteria.take position)]? = some argument ∧ ¬ Predicate.isArray argument

theorem not_misfit_nil : ¬ Misfit [] arguments position := by
  rintro ⟨_, _, hcriterion, -⟩
  cases hcriterion

theorem misfit_zero_iff : Misfit (criterion :: criteria) arguments 0 ↔
    (criterion.operator = .isIn ∨ criterion.operator = .notIn) ∧
      ∃ argument, arguments[0]? = some argument ∧ ¬ Predicate.isArray argument := by
  simp only [Misfit, List.getElem?_cons_zero, Option.some.injEq, List.take_zero, arity,
    List.foldr_nil]
  constructor
  · rintro ⟨_, argument, rfl, hoperator, hargument⟩
    exact ⟨hoperator, argument, hargument⟩
  · rintro ⟨hoperator, argument, hargument⟩
    exact ⟨criterion, argument, rfl, hoperator, hargument⟩

/-- Behind the first criterion its arguments are gone. -/
theorem misfit_succ_iff : Misfit (criterion :: criteria) arguments (position + 1) ↔
    Misfit criteria (arguments.drop criterion.operator.arity) position := by
  simp only [Misfit, List.getElem?_cons_succ, List.take_succ_cons, List.getElem?_drop, arity,
    List.foldr_cons]

/-- Where the first criterion fits, the first misfit is one of the others. -/
theorem isLeast_misfit_succ (hfits : ¬ Misfit (criterion :: criteria) arguments 0)
    (h : IsLeast {position | Misfit criteria (arguments.drop criterion.operator.arity) position}
      position) :
    IsLeast {position | Misfit (criterion :: criteria) arguments position} (position + 1) := by
  refine ⟨misfit_succ_iff.mpr h.1, fun other hother => ?_⟩
  cases other with
  | zero => exact absurd hother hfits
  | succ other => exact Nat.succ_le_succ (h.2 (misfit_succ_iff.mp hother))

/-! ## Binding -/

theorem takesArray_iff {operator : Operator} :
    operator.takesArray = true ↔ operator = .isIn ∨ operator = .notIn := by
  cases operator <;> simp [Operator.takesArray]

theorem arity_of_takesArray {operator : Operator} (h : operator.takesArray = true) :
    operator.arity = 1 := by
  rcases takesArray_iff.mp h with rfl | rfl <;> rfl

/-- The first criterion is bound to its arguments if they fit. -/
theorem bindCriterion_eq_ok_or_error (h : criterion.operator.arity ≤ arguments.length) :
    (¬ Misfit (criterion :: criteria) arguments 0 ∧ ∃ predicate,
      bindCriterion m criterion (arguments.take criterion.operator.arity) = .ok predicate) ∨
    Misfit (criterion :: criteria) arguments 0 ∧
      bindCriterion m criterion (arguments.take criterion.operator.arity)
        = .error (.invalidArgument criterion.property.dotted (.notArray criterion.operator)) := by
  rw [misfit_zero_iff, ← takesArray_iff]
  cases harray : criterion.operator.takesArray with
  | false =>
    refine .inl ⟨fun hmisfit => Bool.false_ne_true hmisfit.1, _, bindCriterion_eq_ok_iff.mpr ⟨?_, rfl⟩⟩
    exact fun htakes => absurd (harray.symm.trans htakes) Bool.false_ne_true
  | true =>
    rw [arity_of_takesArray harray] at h ⊢
    obtain ⟨argument, rest, rfl⟩ := List.exists_cons_of_length_pos h
    cases hfits : Predicate.isArray argument with
    | true =>
      refine .inl ⟨by simp [hfits], _, bindCriterion_eq_ok_iff.mpr ⟨fun _ => ?_, rfl⟩⟩
      simp [hfits]
    | false =>
      refine .inr ⟨by simp [hfits], ?_⟩
      change (if (criterion.operator.takesArray && !([argument].all Predicate.isArray)) = true then _
        else _) = _
      simp [harray, hfits]

/-- **All criteria are bound, or the first misfit is reported.** -/
theorem bind_eq_ok_or_error (h : arity criteria = arguments.length) :
    ((∀ position, ¬ Misfit criteria arguments position) ∧
      ∃ predicates, bind m criteria arguments = .ok predicates) ∨
    ∃ position criterion, IsLeast {position | Misfit criteria arguments position} position ∧
      criteria[position]? = some criterion ∧
      bind m criteria arguments
        = .error (.invalidArgument criterion.property.dotted (.notArray criterion.operator)) := by
  induction criteria generalizing arguments with
  | nil => exact .inl ⟨fun _ => not_misfit_nil, [], rfl⟩
  | cons criterion rest ih =>
    rw [arity, List.foldr_cons] at h
    have hfirst : criterion.operator.arity ≤ arguments.length := by omega
    have hrest : arity rest = (arguments.drop criterion.operator.arity).length := by
      rw [List.length_drop, arity]
      omega
    rw [bind]
    rcases bindCriterion_eq_ok_or_error hfirst with ⟨hfits, predicate, hbound⟩ | ⟨hmisfit, hbound⟩
    · rw [hbound, ok_bind]
      rcases ih hrest with ⟨hall, predicates, hothers⟩ | ⟨position, other, hleast, hother, hothers⟩
      · rw [hothers, ok_bind]
        refine .inl ⟨fun position => ?_, _, rfl⟩
        cases position with
        | zero => exact hfits
        | succ position => exact fun hmisfit => hall position (misfit_succ_iff.mp hmisfit)
      · rw [hothers, error_bind]
        exact .inr ⟨position + 1, other, isLeast_misfit_succ hfits hleast, hother, rfl⟩
    · rw [hbound, error_bind]
      exact .inr ⟨0, criterion, ⟨hmisfit, fun _ _ => Nat.zero_le _⟩, rfl, rfl⟩

/-! ## Assembling -/

/-- **Arguments are handed out from left to right, and none is lost.** Their number has to be that which
the criteria take. Then the first criterion with an argument that does not fit is reported, or there is a
predicate for each criterion, in order, with as many values as its operator takes, and the values of all
predicates are the arguments. -/
theorem assemble_hands_out (m : EntityMetadata) (operation : Operation) (arguments : List Json)
    (order : Option OrderKey) (page : PageState) :
    (assemble m operation arguments order page
        = .error (.argumentCount operation.method operation.arity arguments.length) ↔
      operation.arity ≠ arguments.length) ∧
    (operation.arity = arguments.length →
      (∀ error, assemble m operation arguments order page = .error error ↔
        ∃ position criterion,
          IsLeast {position | Misfit operation.criteria arguments position} position ∧
          operation.criteria[position]? = some criterion ∧
          error = .invalidArgument criterion.property.dotted (.notArray criterion.operator)) ∧
      ((∀ position, ¬ Misfit operation.criteria arguments position) → ∃ predicates,
        assemble m operation arguments order page = .ok {
          collection := m.collection
          projection := m.typeName
          action := operation.action
          tree := ⟨operation.connector, predicates⟩
          order, page } ∧
        predicates.map Predicate.criterion = operation.criteria ∧
        predicates.flatMap (·.values) = arguments ∧
        ∀ predicate ∈ predicates, predicate.field = m.documentField predicate.property ∧
          predicate.values.length = predicate.operator.arity)) := by
  have hcount : operation.arity ≠ arguments.length → assemble m operation arguments order page
      = .error (.argumentCount operation.method operation.arity arguments.length) :=
    fun hcount => if_pos hcount
  have hassemble : operation.arity = arguments.length → assemble m operation arguments order page =
      bind m operation.criteria arguments >>= fun predicates => .ok {
        collection := m.collection
        projection := m.typeName
        action := operation.action
        tree := ⟨operation.connector, predicates⟩
        order, page } := fun harity => if_neg (not_not_intro harity)
  constructor
  · refine ⟨fun herror harity => ?_, hcount⟩
    rw [hassemble harity] at herror
    rcases bind_eq_ok_or_error harity with ⟨-, _, hbound⟩ | ⟨_, _, -, -, hbound⟩
    · rw [hbound] at herror
      cases herror
    · rw [hbound] at herror
      cases herror
  · intro harity
    rw [hassemble harity]
    rcases bind_eq_ok_or_error harity with ⟨hall, predicates, hbound⟩ |
      ⟨position, criterion, hleast, hcriterion, hbound⟩
    · rw [hbound, ok_bind]
      obtain ⟨hcriteria, hvalues, hpredicates⟩ := of_bind harity hbound
      refine ⟨fun error => ⟨nofun, ?_⟩, fun _ => ⟨predicates, rfl, hcriteria, hvalues, ?_⟩⟩
      · rintro ⟨position, _, hleast, -⟩
        exact absurd hleast.1 (hall position)
      · intro predicate hmem
        obtain ⟨hfield, hlength, -⟩ := hpredicates predicate hmem
        exact ⟨hfield, hlength⟩
    · rw [hbound, error_bind]
      refine ⟨fun error => ⟨?_, ?_⟩, fun hnone => absurd hleast.1 (hnone position)⟩
      · rintro ⟨⟩
        exact ⟨position, criterion, hleast, hcriterion, rfl⟩
      · rintro ⟨other, found, hother, hfound, rfl⟩
        -- There is only one first misfit.
        obtain rfl := hleast.unique hother
        cases hcriterion.symm.trans hfound
        rfl

/-- A range takes two arguments and a missing value none, so the third argument is that of the search. -/
theorem assemble_hands_out_towns :
    let m : EntityMetadata := { (default : EntityMetadata) with idProperty := ⟨["id"], .string⟩ }
    let operation : Operation := ⟨"findByNameBetweenAndMayorIsNullAndIdIn", .find, {}, .and,
      [⟨⟨["name"], .string⟩, .between, false⟩, ⟨⟨["mayor"], .string⟩, .isNull, false⟩,
        ⟨⟨["id"], .string⟩, .isIn, false⟩], []⟩
    let ids : Json := .array [.string "1", .string "2"]
    let page : PageState := ⟨100, none, []⟩
    (∃ query, assemble m operation [.string "A", .string "M", ids] none page = .ok query ∧
      query.tree.predicates.map Predicate.criterion = operation.criteria ∧
      query.tree.predicates.flatMap (·.values) = [.string "A", .string "M", ids]) ∧
    assemble m operation [.string "A", .string "M", .string "1"] none page
      = .error (.invalidArgument "id" (.notArray .isIn)) := by
  intro m operation ids page
  constructor
  · have hfits : ∀ position, ¬ Misfit operation.criteria [.string "A", .string "M", ids] position
      | 0 => by simp [misfit_zero_iff, operation]
      | 1 => by simp [misfit_succ_iff, misfit_zero_iff, operation]
      | 2 => by simp [misfit_succ_iff, misfit_zero_iff, operation, ids, Operator.arity,
          Predicate.isArray]
      | position + 3 => by simp [misfit_succ_iff, not_misfit_nil, operation]
    obtain ⟨predicates, hassemble, hcriteria, hvalues, -⟩ :=
      ((assemble_hands_out m operation _ none page).2 rfl).2 hfits
    exact ⟨_, hassemble, hcriteria, hvalues⟩
  · refine (((assemble_hands_out m operation _ none page).2 rfl).1 _).mpr
      ⟨2, _, ⟨?_, fun position hmisfit => ?_⟩, rfl, rfl⟩
    · simp [misfit_succ_iff, misfit_zero_iff, operation, Operator.arity, Predicate.isArray]
    · match position with
      | 0 => simp [misfit_zero_iff, operation] at hmisfit
      | 1 => simp [misfit_succ_iff, misfit_zero_iff, operation] at hmisfit
      | position + 2 => exact Nat.le_add_left 2 position

end DerivedQuery.Query
