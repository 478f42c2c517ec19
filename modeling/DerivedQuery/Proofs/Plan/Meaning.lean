import DerivedQuery.Predicate.Eval
import DerivedQuery.Proofs.Json.Equality
import DerivedQuery.Proofs.Plan.Parameters

/-!
# Queries that render alike

If two find queries have one text and the same parameters (`SqlQuery.Same`), their predicates are tested
alike (`Sql.alike_of_text_eq`), and each binds the same values (`Sql.forall₂_same_boundValues`). The
evaluator cannot tell values that are the same apart (`Predicate.test_congr`), so the queries select the
same documents. Only lists that are compared without regard to case are not bound as they are: they are
bound in upper case, while the evaluator compares in lower case. There the queries may differ, unless
lower case agrees with upper case on the elements (`Predicate.CaseAgrees`).
-/

namespace DerivedQuery

/-- The texts are equal, and the parameters have the same names and values. -/
structure SqlQuery.Same (sql other : SqlQuery) : Prop where
  text : sql.text = other.text
  parameters : List.Forall₂ (fun parameter other : SqlParameter =>
    parameter.name = other.name ∧ parameter.value.same other.value) sql.parameters other.parameters

/-! ## Values that are the same -/

/-- A test finds the same in two lists if it gives the same for their elements, one by one. -/
theorem any_and_all_eq_of_forall₂ {α : Type} {p : α → Bool} {xs ys : List α}
    (h : List.Forall₂ (fun x y => p x = p y) xs ys) : xs.any p = ys.any p ∧ xs.all p = ys.all p := by
  induction h with
  | nil => exact ⟨rfl, rfl⟩
  | cons hhead _ ih => simp [hhead, ih.1, ih.2]

namespace Json

variable {a b value : Json}

theorem same_congr_right (h : a.same b) : value.same a = value.same b :=
  Bool.eq_iff_iff.mpr ⟨fun ha => same_trans ha h, fun hb => same_trans hb (same_symm h)⟩

theorem sameElements_iff_forall₂ {xs ys : List Json} :
    sameElements xs ys ↔ List.Forall₂ (fun x y : Json => x.same y) xs ys := by
  induction xs generalizing ys with
  | nil => cases ys <;> simp [sameElements]
  | cons x xs ih => cases ys <;> simp [sameElements, ih]

/-- Lists of values that are the same have values that are the same at each place, and nothing at the
same places. -/
theorem same_getD {xs ys : List Json} (h : List.Forall₂ (fun x y : Json => x.same y) xs ys) (i : Nat) :
    (xs[i]?.getD .null).same (ys[i]?.getD .null) := by
  induction h generalizing i with
  | nil => rfl
  | cons hhead _ ih =>
    cases i with
    | zero => exact hhead
    | succ i => exact ih i

theorem Number.order_congr {k m n : Number} (h : m.same n) : k.order m = k.order n := by
  cases m with
  | integer i =>
    cases n with
    | integer j =>
      rw [Number.same, beq_iff_eq] at h
      rw [h]
    | float y => cases h
  | float x =>
    cases n with
    | integer j => cases h
    | float y =>
      rw [Number.same, beq_iff_eq] at h
      cases k <;> simp only [Number.order, Number.toInt64?, Number.toFloat, Binary64.order, h]

/-- Values that are the same have the same place in the order. -/
theorem compare?_congr (h : a.same b) : value.compare? a = value.compare? b := by
  cases a with
  | null =>
    cases b with
    | null => rfl
    | _ => cases h
  | bool p =>
    cases b with
    | bool q =>
      rw [same, beq_iff_eq] at h
      rw [h]
    | _ => cases h
  | number m =>
    cases b with
    | number n => cases value <;> simp only [compare?, Number.order_congr h]
    | _ => cases h
  | string s =>
    cases b with
    | string t =>
      rw [same, beq_iff_eq] at h
      rw [h]
    | _ => cases h
  | array xs =>
    cases b with
    | array ys => cases value <;> rfl
    | _ => cases h
  | object xs =>
    cases b with
    | object ys => cases value <;> rfl
    | _ => cases h

end Json

/-! ## Tests -/

namespace Predicate

/-- The value with its case folded, if it is a text and case is ignored. -/
def folded (ignoreCase : Bool) : Json → Json
  | .string s => .string (String.ofList (fold ignoreCase s))
  | value => value

/-- Equality without regard to case is equality of what is left of the values. -/
theorem equals_eq_same_folded (ignoreCase : Bool) (a b : Json) :
    equals ignoreCase a b = (folded ignoreCase a).same (folded ignoreCase b) := by
  cases a with
  | string s =>
    cases b with
    | string t =>
      rw [Bool.eq_iff_iff, equals, folded, folded, Json.same, beq_iff_eq, beq_iff_eq,
        String.ofList_inj]
    | _ => rfl
  | _ => cases b <;> rfl

variable {ignoreCase : Bool} {a b value : Json} {xs ys : List Json}

/-- What equals one of two values that are equal without regard to case equals the other one. -/
theorem equals_congr (h : equals ignoreCase a b) :
    equals ignoreCase value a = equals ignoreCase value b := by
  rw [equals_eq_same_folded] at h
  rw [equals_eq_same_folded, equals_eq_same_folded, Json.same_congr_right h]

theorem equals_of_same (h : a.same b) : equals ignoreCase a b := by
  cases a with
  | string s =>
    cases b with
    | string t =>
      rw [Json.same, beq_iff_eq] at h
      rw [h, equals_eq_same_folded]
      exact Json.same_refl _
    | _ => cases h
  | _ => cases b <;> exact h

/-- A value is among the elements of one of two lists that are equal element by element exactly if it is
among those of the other one. -/
theorem any_equals_congr (h : List.Forall₂ (fun x y => equals ignoreCase x y) xs ys) :
    xs.any (equals ignoreCase value) = ys.any (equals ignoreCase value) :=
  (any_and_all_eq_of_forall₂ (h.imp fun _ _ => equals_congr)).1

theorem isAmong_congr (h : a.same b) : isAmong ignoreCase value a = isAmong ignoreCase value b := by
  cases a with
  | array xs =>
    cases b with
    | array ys => exact any_equals_congr ((Json.sameElements_iff_forall₂.mp h).imp fun _ _ =>
        equals_of_same)
    | _ => cases h
  | _ => cases b <;> first | rfl | cases h

theorem isArray_congr (h : a.same b) : isArray a = isArray b := by
  cases a <;> cases b <;> first | rfl | cases h

theorem testTexts_congr (h : a.same b) (accept : List Char → List Char → Bool) :
    testTexts ignoreCase accept value a = testTexts ignoreCase accept value b := by
  cases a with
  | string s =>
    cases b with
    | string t =>
      rw [Json.same, beq_iff_eq] at h
      rw [h]
    | _ => cases h
  | _ => cases b <;> first | (cases value <;> rfl) | cases h

theorem contains_congr (h : a.same b) : contains ignoreCase value a = contains ignoreCase value b := by
  unfold contains
  split
  · exact List.any_congr rfl fun x => equals_congr (equals_of_same h)
  · exact testTexts_congr h _

theorem compares_congr (h : a.same b) (accept : Ordering → Bool) :
    compares accept value a = compares accept value b := by
  rw [compares, compares, Json.isNull_eq_of_same h, Json.compare?_congr h]

/-- **No test tells values apart that are the same.** -/
theorem test_congr (operator : Operator) {first first' second second' : Json}
    (h : first.same first') (h' : second.same second') :
    test operator ignoreCase value first second = test operator ignoreCase value first' second' := by
  cases operator <;>
    simp only [test, equals_congr (equals_of_same h), contains_congr h, testTexts_congr h,
      isAmong_congr h, isArray_congr h, compares_congr h, compares_congr h']

theorem test_standard (operator : Operator) (first second : Json) :
    test operator.standard ignoreCase value first second
      = test operator ignoreCase value first second := by
  cases operator <;> rfl

/-- Nor does membership tell lists apart that are equal element by element. -/
theorem test_congr_of_forall₂ {operator : Operator} (hlist : operator.takesArray)
    (h : List.Forall₂ (fun x y => equals ignoreCase x y) xs ys) (second second' : Json) :
    test operator ignoreCase value (.array xs) second
      = test operator ignoreCase value (.array ys) second' := by
  cases operator with
  | isIn => exact any_equals_congr h
  | notIn => exact congrArg (fun among => true && !among) (any_equals_congr h)
  | _ => cases hlist

/-! ## Predicates -/

/-- The elements of the list that the predicate compares with. -/
def choices (predicate : Predicate) : List Json :=
  match predicate.values with
  | [.array elements] => elements
  | _ => []

/-- If the predicates compare with lists without regard to case, their elements are equal for the
evaluator at each place where they are the same in upper case. -/
def CaseAgrees (predicate other : Predicate) : Prop :=
  predicate.criterion.foldsList →
    List.Forall₂ (fun x y => (Sql.upperStrings x).same (Sql.upperStrings y) → equals true x y)
      predicate.choices other.choices

theorem foldsList_iff {predicate : Predicate} :
    predicate.criterion.foldsList ↔ predicate.ignoreCase ∧ predicate.operator.takesArray :=
  Bool.and_eq_true_iff

theorem values_of_takesArray {predicate : Predicate} (h : predicate.WellFormed)
    (hlist : predicate.operator.takesArray) : predicate.values = [.array predicate.choices] := by
  have harity : predicate.operator.arity = 1 := by
    cases hoperator : predicate.operator <;> rw [hoperator] at hlist <;> first | rfl | cases hlist
  obtain ⟨value, hvalues⟩ := List.length_eq_one_iff.mp (h.length_values.trans harity)
  have harray := h.isArray hlist value (hvalues ▸ List.mem_singleton_self value)
  rw [choices, hvalues]
  cases value with
  | array elements => rfl
  | _ => cases harray

theorem boundValues_of_not_foldsList {predicate : Predicate} (h : predicate.WellFormed)
    (hplain : predicate.criterion.foldsList = false) :
    Sql.boundValues predicate = predicate.values := by
  have hbound : ∀ value, predicate.criterion.bound value = value := by
    intro value
    rw [Criterion.bound, hplain]
    rfl
  rw [Sql.boundValues_eq h]
  exact (List.map_congr_left fun value _ => hbound value).trans (List.map_id _)

end Predicate

theorem Operator.takesArray_standard (operator : Operator) :
    operator.standard.takesArray = operator.takesArray := by
  cases operator <;> rfl

theorem Operator.arity_standard (operator : Operator) : operator.standard.arity = operator.arity := by
  cases operator <;> rfl

theorem Operator.standard_beq_isNull (operator : Operator) :
    (operator.standard == .isNull) = (operator == .isNull) := by
  cases operator <;> rfl

theorem Sql.upperElements_eq_map (elements : List Json) :
    upperElements elements = elements.map upperStrings := by
  induction elements with
  | nil => rfl
  | cons x rest ih => rw [upperElements, ih, List.map_cons]

namespace Predicate

theorem Alike.foldsList {predicate other : Predicate} (h : predicate.Alike other) :
    predicate.criterion.foldsList = other.criterion.foldsList := by
  have hlist : predicate.operator.takesArray = other.operator.takesArray := by
    rw [← Operator.takesArray_standard, h.operator, Operator.takesArray_standard]
  rw [Criterion.foldsList, Criterion.foldsList, criterion, criterion]
  dsimp only
  rw [h.ignoreCase, hlist]

theorem forall₂_equals_choices {predicate other : Predicate} (h : predicate.WellFormed)
    (h' : other.WellFormed) (hfolds : predicate.criterion.foldsList)
    (hfolds' : other.criterion.foldsList)
    (hvalues : List.Forall₂ (fun a b : Json => a.same b) (Sql.boundValues predicate)
      (Sql.boundValues other))
    (hcase : predicate.CaseAgrees other) :
    List.Forall₂ (fun x y => equals true x y) predicate.choices other.choices := by
  have hlist := (foldsList_iff.mp hfolds).2
  have hlist' := (foldsList_iff.mp hfolds').2
  rw [Sql.boundValues_eq h, Sql.boundValues_eq h', values_of_takesArray h hlist,
    values_of_takesArray h' hlist', List.map_singleton, List.map_singleton, Criterion.bound,
    Criterion.bound, if_pos hfolds, if_pos hfolds', List.forall₂_cons] at hvalues
  have hupper := Json.sameElements_iff_forall₂.mp hvalues.1
  rw [Sql.upperElements_eq_map, Sql.upperElements_eq_map, List.forall₂_map_left_iff,
    List.forall₂_map_right_iff, List.forall₂_iff_zip] at hupper
  have hagrees := List.forall₂_iff_zip.mp (hcase hfolds)
  exact List.forall₂_iff_zip.mpr ⟨hupper.1, fun hmem => hagrees.2 hmem (hupper.2 hmem)⟩

/-- **Predicates that are tested alike and bind the same values hold of the same documents.** -/
theorem Alike.holds_congr {predicate other : Predicate} (halike : predicate.Alike other)
    (h : predicate.WellFormed) (h' : other.WellFormed)
    (hvalues : List.Forall₂ (fun a b : Json => a.same b) (Sql.boundValues predicate)
      (Sql.boundValues other))
    (hcase : predicate.CaseAgrees other) (document : Document) :
    predicate.holds document = other.holds document := by
  rw [holds, holds, halike.field]
  cases document.field? other.field with
  | none =>
    dsimp only
    rw [← Operator.standard_beq_isNull, halike.operator, Operator.standard_beq_isNull]
  | some value =>
    dsimp only
    rw [← test_standard predicate.operator, ← test_standard other.operator, halike.operator,
      halike.ignoreCase]
    cases hfolds : predicate.criterion.foldsList with
    | true =>
      have hfolds' : other.criterion.foldsList := halike.foldsList ▸ hfolds
      obtain ⟨-, hlist⟩ := foldsList_iff.mp hfolds
      obtain ⟨hignore', hlist'⟩ := foldsList_iff.mp hfolds'
      have hchoices := forall₂_equals_choices h h' hfolds hfolds' hvalues hcase
      rw [values_of_takesArray h hlist, values_of_takesArray h' hlist', hignore']
      exact test_congr_of_forall₂ (other.operator.takesArray_standard.trans hlist') hchoices _ _
    | false =>
      have hplain' : other.criterion.foldsList = false := halike.foldsList ▸ hfolds
      rw [boundValues_of_not_foldsList h hfolds, boundValues_of_not_foldsList h' hplain'] at hvalues
      exact test_congr _ (Json.same_getD hvalues 0) (Json.same_getD hvalues 1)

end Predicate

/-! ## Queries -/

/-- Predicates that are tested alike bind equally many values, so lists of all these values are cut at
the same places. -/
theorem Sql.forall₂_same_boundValues {predicates others : List Predicate}
    (halike : List.Forall₂ Predicate.Alike predicates others)
    (hvalues : List.Forall₂ (fun a b : Json => a.same b) (predicates.flatMap boundValues)
      (others.flatMap boundValues)) :
    List.Forall₂ (fun predicate other =>
      List.Forall₂ (fun a b : Json => a.same b) (boundValues predicate) (boundValues other))
      predicates others := by
  induction halike with
  | nil => exact .nil
  | @cons predicate other predicates others hhead _ ih =>
    have hlength : (boundValues predicate).length = (boundValues other).length := by
      rw [length_boundValues, length_boundValues, ← Operator.arity_standard, hhead.operator,
        Operator.arity_standard]
    rw [List.flatMap_cons, List.flatMap_cons] at hvalues
    have hfirst := List.forall₂_take_append _ _ _ hvalues
    have hrest := List.forall₂_drop_append _ _ _ hvalues
    rw [← hlength, List.take_left] at hfirst
    rw [← hlength, List.drop_left] at hrest
    exact .cons hfirst (ih hrest)

/-- Trees hold of a document alike if their predicates do, one by one. -/
theorem PredicateTree.Alike.holds_congr {tree other : PredicateTree} {document : Document}
    (halike : tree.Alike other)
    (h : List.Forall₂ (fun predicate other : Predicate =>
      predicate.holds document = other.holds document) tree.predicates other.predicates) :
    tree.holds document = other.holds document := by
  obtain ⟨connector, predicates⟩ := tree
  obtain ⟨connector', others⟩ := other
  have hconnector := halike.connector
  cases h with
  | nil => rfl
  | cons hhead htail =>
    cases htail with
    | nil => cases connector <;> cases connector' <;> simp [PredicateTree.holds, hhead]
    | cons hnext hrest =>
      -- From two predicates on, the connectors are the same.
      cases hconnector (by simp)
      obtain ⟨hany, hall⟩ := any_and_all_eq_of_forall₂ (.cons hhead (.cons hnext hrest))
      cases connector with
      | and => exact hall
      | or => exact hany

/-- **Queries that render alike order alike, and select alike where upper case agrees with lower case.**
Their predicates are tested alike one by one, on the same fields. -/
theorem Engine.same_meaning_of_same_render {σ τ : Type} (e : Engine σ) (e' : Engine τ)
    {session later : Session σ} {session' later' : Session τ} {method method' : String}
    {call call' : Call} {query query' : Query}
    (h : (e.assemble method call).runOn session = (.ok query, later))
    (h' : (e'.assemble method' call').runOn session' = (.ok query', later'))
    (hfind : query.action = .find) (hfind' : query'.action = .find)
    (hsame : (Sql.render query).Same (Sql.render query')) :
    query.order.map OrderKey.ranking = query'.order.map OrderKey.ranking ∧
    query.tree.Alike query'.tree ∧
    (List.Forall₂ Predicate.CaseAgrees query.tree.predicates query'.tree.predicates →
      ∀ document, query.tree.holds document = query'.tree.holds document) := by
  have hwell := wellFormed_of_planned (e.planned_of_assemble h)
  have hwell' := wellFormed_of_planned (e'.planned_of_assemble h')
  obtain ⟨halike, horder⟩ := Sql.alike_of_text_eq hwell hwell' hfind hfind' hsame.text
  refine ⟨horder, halike, ?_⟩
  intro hcase document
  have hvalues : List.Forall₂ (fun a b : Json => a.same b)
      (query.tree.predicates.flatMap Sql.boundValues)
      (query'.tree.predicates.flatMap Sql.boundValues) := by
    rw [← Sql.values_parameters _ 0, ← Sql.values_parameters _ 0, List.forall₂_map_left_iff,
      List.forall₂_map_right_iff]
    exact hsame.parameters.imp fun _ _ hparameter => hparameter.2
  have hbound := List.forall₂_iff_zip.mp (Sql.forall₂_same_boundValues halike.predicates hvalues)
  have hpairs := List.forall₂_iff_zip.mp halike.predicates
  have hagrees := List.forall₂_iff_zip.mp hcase
  refine halike.holds_congr (List.forall₂_iff_zip.mpr ⟨hpairs.1, ?_⟩)
  intro predicate predicate' hmem
  obtain ⟨hmember, hmember'⟩ := List.of_mem_zip hmem
  exact (hpairs.2 hmem).holds_congr (hwell predicate hmember) (hwell' predicate' hmember')
    (hbound.2 hmem) (hagrees.2 hmem) document

theorem Engine.same_meaning_of_same_render_towns :
    let e := inMemory Town.metadata {}
    let session : Session MemoryStore := { store := Town.store }
    let call : Call := { arguments := [.string "1", .array [.string "Oslo"]] }
    let other : Call := { arguments := [.string "1", .array [.string "oSLO"]] }
    ∃ query query' later later',
      (e.assemble "findByIdAfterAndNameInIgnoreCase" call).runOn session = (.ok query, later) ∧
      (e.assemble "findByIdGreaterThanAndNameInIgnoreCase" other).runOn session
        = (.ok query', later') ∧
      (Sql.render query).Same (Sql.render query') ∧
      ∀ document, query.tree.holds document = query'.tree.holds document := by
  intro e session call other
  have hparse : Method.parse e.metadata "findByIdAfterAndNameInIgnoreCase"
      = .ok ⟨"findByIdAfterAndNameInIgnoreCase", .find, {}, .and,
        [⟨⟨["id"], .string⟩, .after, false⟩, ⟨⟨["name"], .string⟩, .isIn, true⟩], []⟩ := by
    with_unfolding_all rfl
  have hparse' : Method.parse e.metadata "findByIdGreaterThanAndNameInIgnoreCase"
      = .ok ⟨"findByIdGreaterThanAndNameInIgnoreCase", .find, {}, .and,
        [⟨⟨["id"], .string⟩, .greaterThan, false⟩, ⟨⟨["name"], .string⟩, .isIn, true⟩], []⟩ := by
    with_unfolding_all rfl
  have hfaithful : e.Faithful session := e.faithful_new Town.store
  let query (operator : Operator) (name : String) : Query := {
    collection := "towns", projection := "Town", action := .find
    tree := ⟨.and, [⟨⟨["id"], .string⟩, "id", operator, false, [.string "1"]⟩,
      ⟨⟨["name"], .string⟩, "name", .isIn, true, [.array [.string name]]⟩]⟩
    order := none, page := ⟨100, none, []⟩ }
  obtain ⟨later, hrun, -⟩ := e.runOn_assemble "findByIdAfterAndNameInIgnoreCase" call session
  obtain ⟨later', hrun', -⟩ :=
    e.runOn_assemble "findByIdGreaterThanAndNameInIgnoreCase" other session
  have hplanned : e.planned session "findByIdAfterAndNameInIgnoreCase" call
      = .ok (query .after "Oslo") := hfaithful.planned_eq hparse
  have hplanned' : e.planned session "findByIdGreaterThanAndNameInIgnoreCase" other
      = .ok (query .greaterThan "oSLO") := hfaithful.planned_eq hparse'
  rw [hplanned] at hrun
  rw [hplanned'] at hrun'
  have hrender : (Sql.render (query .after "Oslo")).Same (Sql.render (query .greaterThan "oSLO")) :=
    ⟨rfl, .cons ⟨rfl, by decide⟩ (.cons ⟨rfl, by decide⟩ .nil)⟩
  obtain ⟨-, -, hholds⟩ := e.same_meaning_of_same_render e hrun hrun' rfl rfl hrender
  refine ⟨_, _, later, later', hrun, hrun', hrender, hholds (.cons ?_ (.cons ?_ .nil))⟩
  · intro hfolds
    cases hfolds
  · intro _
    exact .cons (fun _ => by decide) .nil

/-- Two calls that render alike, although one of them selects a document that the other one does not:
`ß` in upper case is `SS`, and in lower case it is itself. -/
theorem Engine.render_conflates_cases :
    let e := inMemory Town.metadata {}
    let session : Session MemoryStore := { store := Town.store }
    let document := Town.document "1" "DE" "ß"
    ∃ query query' later later',
      (e.assemble "findByNameInIgnoreCase" { arguments := [.array [.string "ß"]] }).runOn session
        = (.ok query, later) ∧
      (e.assemble "findByNameInIgnoreCase" { arguments := [.array [.string "ss"]] }).runOn session
        = (.ok query', later') ∧
      query.action = .find ∧ query'.action = .find ∧
      (Sql.render query).Same (Sql.render query') ∧
      query.tree.holds document = true ∧ query'.tree.holds document = false := by
  intro e session document
  have hparse : Method.parse e.metadata "findByNameInIgnoreCase" = .ok ⟨"findByNameInIgnoreCase",
      .find, {}, .and, [⟨⟨["name"], .string⟩, .isIn, true⟩], []⟩ := by with_unfolding_all rfl
  have hfaithful : e.Faithful session := e.faithful_new Town.store
  obtain ⟨later, hrun, -⟩ := e.runOn_assemble "findByNameInIgnoreCase"
    { arguments := [.array [.string "ß"]] } session
  obtain ⟨later', hrun', -⟩ := e.runOn_assemble "findByNameInIgnoreCase"
    { arguments := [.array [.string "ss"]] } session
  rw [hfaithful.planned_eq hparse] at hrun hrun'
  exact ⟨_, _, later, later', hrun, hrun', rfl, rfl, ⟨rfl, .cons ⟨rfl, by decide⟩ .nil⟩, by decide,
    by decide⟩

end DerivedQuery
