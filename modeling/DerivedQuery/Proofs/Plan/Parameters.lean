import DerivedQuery.Proofs.Engine.Walk
import DerivedQuery.Proofs.Plan.Mentions
import DerivedQuery.Proofs.Store.Reachable

/-!
# Parameters and arguments

Each argument of a call is bound to one parameter, in order (`Sql.Binds`): the parameter is named after
the property that the argument is compared with and after the place of the argument, and its value is the
argument. Only a list that is compared without regard to case is bound in upper case, as far as arrays
reach (`Sql.Uppercased`). So the text of a query depends on the method and the order alone, and arguments
never show in it (`Engine.text_independent_of_arguments`).
-/

namespace DerivedQuery

/-! ## Criteria that take arguments -/

namespace Criterion

/-- The criterion compares with the elements of a list without regard to case. -/
def foldsList (criterion : Criterion) : Bool := criterion.ignoreCase && criterion.operator.takesArray

/-- What is bound for an argument. -/
def bound (criterion : Criterion) (argument : Json) : Json :=
  if criterion.foldsList then Sql.upperStrings argument else argument

/-- As often as it takes an argument, the criterion. -/
def takers (criterion : Criterion) : List Criterion :=
  List.replicate criterion.operator.arity criterion

end Criterion

/-- The criterion that takes each argument. -/
def Operation.takers (operation : Operation) : List Criterion :=
  operation.criteria.flatMap Criterion.takers

/-- The criterion that takes each argument. -/
def PredicateTree.takers (tree : PredicateTree) : List Criterion :=
  tree.predicates.flatMap fun predicate => predicate.criterion.takers

theorem PredicateTree.takers_eq_of_criteria {tree : PredicateTree} {operation : Operation}
    (h : tree.predicates.map Predicate.criterion = operation.criteria) :
    tree.takers = operation.takers := by
  rw [takers, Operation.takers, ← h, List.flatMap_map]

namespace Sql

/-! ## Names and values -/

theorem names_parameters (predicates : List Predicate) (position : Nat) :
    (parameters position predicates).map (·.name)
      = (predicates.flatMap fun predicate => predicate.criterion.takers).mapIdx
          fun offset criterion => parameterName criterion.property (position + offset) := by
  induction predicates generalizing position with
  | nil => rfl
  | cons predicate predicates ih =>
    have hlength : predicate.criterion.takers.length = (boundValues predicate).length := by
      rw [Criterion.takers, List.length_replicate, length_boundValues]
      rfl
    have hnames : ((boundValues predicate).mapIdx fun offset value => ({
          name := parameterName predicate.property (position + offset), value } : SqlParameter)).map
          (·.name)
        = predicate.criterion.takers.mapIdx
            fun offset criterion => parameterName criterion.property (position + offset) := by
      refine List.ext_getElem (by simp [hlength]) ?_
      intro offset _ _
      simp [Criterion.takers, Predicate.criterion]
    rw [parameters, List.map_append, List.flatMap_cons, List.mapIdx_append, ih, hnames, hlength]
    simp only [Nat.add_assoc, Nat.add_comm (boundValues predicate).length]

/-- The names of the parameters of a query, in order. -/
theorem names_render (query : Query) :
    (render query).parameters.map (·.name)
      = query.tree.takers.mapIdx fun i criterion => parameterName criterion.property i := by
  have h := names_parameters query.tree.predicates 0
  simp only [Nat.zero_add] at h
  exact h

theorem values_parameters (predicates : List Predicate) (position : Nat) :
    (parameters position predicates).map (·.value) = predicates.flatMap boundValues := by
  induction predicates generalizing position with
  | nil => rfl
  | cons predicate predicates ih =>
    have hvalues : ((boundValues predicate).mapIdx fun offset value => ({
          name := parameterName predicate.property (position + offset), value } : SqlParameter)).map
          (·.value) = boundValues predicate := by
      refine List.ext_getElem (by simp) ?_
      intro offset _ _
      simp
    rw [parameters, List.map_append, List.flatMap_cons, ih, hvalues]

/-- An accepted predicate binds its values. -/
theorem boundValues_eq {predicate : Predicate} (h : predicate.WellFormed) :
    boundValues predicate = predicate.values.map predicate.criterion.bound := by
  obtain ⟨property, field, operator, ignoreCase, values⟩ := predicate
  have hlength : values.length = operator.arity := h.length_values
  -- Only membership is not bound as it is.
  have hplain : operator.takesArray = false →
      values.map (Criterion.bound ⟨property, operator, ignoreCase⟩) = values := by
    intro htakes
    have hbound : ∀ value, Criterion.bound ⟨property, operator, ignoreCase⟩ value = value := by
      intro value
      simp [Criterion.bound, Criterion.foldsList, htakes]
    exact (List.map_congr_left fun value _ => hbound value).trans (List.map_id values)
  cases operator with
  | isNull | isNotNull | isTrue | isFalse =>
    rw [List.length_eq_zero_iff.mp hlength]
    rfl
  | between =>
    obtain ⟨first, second, rfl⟩ := List.length_eq_two.mp hlength
    exact (hplain rfl).symm
  | isIn | notIn =>
    obtain ⟨first, rfl⟩ := List.length_eq_one_iff.mp hlength
    cases ignoreCase <;> rfl
  | _ =>
    obtain ⟨first, rfl⟩ := List.length_eq_one_iff.mp hlength
    exact (hplain rfl).symm

theorem zipWith_takers {predicate : Predicate} (h : predicate.WellFormed) :
    List.zipWith Criterion.bound predicate.criterion.takers predicate.values
      = boundValues predicate := by
  have hzip : ∀ values : List Json,
      List.zipWith Criterion.bound (List.replicate values.length predicate.criterion) values
        = values.map predicate.criterion.bound := by
    intro values
    induction values with
    | nil => rfl
    | cons value values ih =>
      rw [List.length_cons, List.replicate_succ, List.zipWith_cons_cons, ih, List.map_cons]
  rw [boundValues_eq h, ← hzip, h.length_values]
  rfl

/-- The parameters of accepted predicates are bound to their values, one after the other. -/
theorem values_eq_zipWith {predicates : List Predicate}
    (h : ∀ predicate ∈ predicates, predicate.WellFormed) :
    predicates.flatMap boundValues
      = List.zipWith Criterion.bound
          (predicates.flatMap fun predicate => predicate.criterion.takers)
          (predicates.flatMap (·.values)) := by
  induction predicates with
  | nil => rfl
  | cons predicate predicates ih =>
    obtain ⟨hpredicate, hpredicates⟩ := List.forall_mem_cons.mp h
    have hlength : predicate.criterion.takers.length = predicate.values.length := by
      rw [Criterion.takers, List.length_replicate, hpredicate.length_values]
      rfl
    rw [List.flatMap_cons, List.flatMap_cons, List.flatMap_cons, List.zipWith_append hlength,
      zipWith_takers hpredicate, ih hpredicates]

/-! ## Lists in upper case -/

/-- The second value is the first one with its strings in upper case, as far as arrays reach. Objects
are left alone. -/
inductive Uppercased : Json → Json → Prop where
  | string (s : String) : Uppercased (.string s) (.string (String.ofList (Text.uppercase s.toList)))
  | array {elements uppercased : List Json} (h : List.Forall₂ Uppercased elements uppercased) :
      Uppercased (.array elements) (.array uppercased)
  | null : Uppercased .null .null
  | bool (value : Bool) : Uppercased (.bool value) (.bool value)
  | number (value : Json.Number) : Uppercased (.number value) (.number value)
  | object (members : List (String × Json)) : Uppercased (.object members) (.object members)

mutual

theorem uppercased_upperStrings : ∀ value : Json, Uppercased value (upperStrings value)
  | .string s => .string s
  | .array elements => .array (forall₂_upperElements elements)
  | .null => .null
  | .bool value => .bool value
  | .number value => .number value
  | .object members => .object members

theorem forall₂_upperElements : ∀ elements : List Json,
    List.Forall₂ Uppercased elements (upperElements elements)
  | [] => .nil
  | x :: rest => .cons (uppercased_upperStrings x) (forall₂_upperElements rest)

end

/-! ## Texts without arguments -/

end Sql

/-- All of a predicate but its values. -/
def Predicate.question (predicate : Predicate) : Criterion × String :=
  (predicate.criterion, predicate.field)

namespace Sql

theorem condition_congr {predicate other : Predicate} (h : predicate.question = other.question)
    (first second : String) : condition predicate first second = condition other first second := by
  obtain ⟨property, field, operator, ignoreCase, values⟩ := predicate
  obtain ⟨property', field', operator', ignoreCase', values'⟩ := other
  cases h
  rfl

theorem conditions_congr {predicates others : List Predicate}
    (h : predicates.map Predicate.question = others.map Predicate.question) (position : Nat) :
    conditions position predicates = conditions position others := by
  induction predicates generalizing others position with
  | nil =>
    cases others with
    | nil => rfl
    | cons other others => cases h
  | cons predicate predicates ih =>
    cases others with
    | nil => cases h
    | cons other others =>
      obtain ⟨hhead, htail⟩ := List.cons_eq_cons.mp h
      have hproperty : predicate.property = other.property := congrArg (·.1.property) hhead
      have hoperator : predicate.operator = other.operator := congrArg (·.1.operator) hhead
      rw [conditions, conditions, condition_congr hhead, hproperty, length_boundValues,
        length_boundValues, hoperator, ih htail]

/-- The text of a query says nothing about the values of its predicates. -/
theorem text_congr {query other : Query} (haction : query.action = other.action)
    (hconnector : query.tree.connector = other.tree.connector)
    (hpredicates : query.tree.predicates.map Predicate.question
      = other.tree.predicates.map Predicate.question)
    (horder : query.order = other.order) : (render query).text = (render other).text := by
  have hempty : query.tree.predicates.isEmpty = other.tree.predicates.isEmpty := by
    rw [← List.isEmpty_map (f := Predicate.question), hpredicates, List.isEmpty_map]
  simp only [render, filter, haction, hconnector, horder, hempty, conditions_congr hpredicates]

/-! ## Arguments -/

/-- The parameters stand for the arguments of an operation, one for each and in order. -/
structure Binds (operation : Operation) (arguments : List Json) (parameters : List SqlParameter) :
    Prop where
  length_eq : parameters.length = arguments.length
  bound : ∀ (i : Nat) (argument : Json), arguments[i]? = some argument →
    ∃ criterion parameter, operation.takers[i]? = some criterion ∧ parameters[i]? = some parameter ∧
      parameter.name = parameterName criterion.property i ∧
      if criterion.foldsList then Uppercased argument parameter.value
      else parameter.value = argument

variable {σ : Type} {e : Engine σ} {session session' : Session σ} {method : String}
  {call other : Call} {query query' : Query}

theorem length_takers {predicates : List Predicate}
    (h : ∀ predicate ∈ predicates, predicate.WellFormed) :
    (predicates.flatMap fun predicate => predicate.criterion.takers).length
      = (predicates.flatMap (·.values)).length := by
  rw [List.length_flatMap, List.length_flatMap]
  refine congrArg List.sum (List.map_congr_left ?_)
  intro predicate hmem
  rw [Criterion.takers, List.length_replicate, (h predicate hmem).length_values]
  rfl

/-- **The parameters of an accepted call are its arguments, in order.** -/
theorem binds_of_planned (h : e.planned session method call = .ok query) :
    ∃ operation, e.reading session method = .ok operation ∧ query.tree.takers = operation.takers ∧
      Binds operation call.arguments (render query).parameters := by
  obtain ⟨operation, hreading, -, -, hcriteria, hvalues, -⟩ := Engine.exists_reading_of_planned h
  have hwell := Engine.wellFormed_of_planned h
  have htakers : query.tree.takers = operation.takers :=
    PredicateTree.takers_eq_of_criteria hcriteria
  have hnames := names_render query
  rw [htakers] at hnames
  have hbound : (render query).parameters.map (·.value)
      = List.zipWith Criterion.bound operation.takers call.arguments := by
    rw [← htakers, ← hvalues]
    exact (values_parameters query.tree.predicates 0).trans (values_eq_zipWith hwell)
  have hlength : operation.takers.length = call.arguments.length := by
    rw [← htakers, ← hvalues]
    exact length_takers hwell
  refine ⟨operation, hreading, htakers, ?_, ?_⟩
  · rw [← List.length_map (·.value), hbound, List.length_zipWith, hlength, Nat.min_self]
  · intro i argument hargument
    obtain ⟨hi, -⟩ := List.getElem?_eq_some_iff.mp hargument
    have hcriterion := List.getElem?_eq_getElem (hlength.symm ▸ hi)
    -- The parameter at the place has the name and the value that the lists of these have there.
    have hvalue := congrArg (·[i]?) hbound
    simp only [List.getElem?_map, List.getElem?_zipWith, hcriterion, hargument,
      Option.map_eq_some_iff] at hvalue
    obtain ⟨parameter, hparameter, hvalue⟩ := hvalue
    have hname := congrArg (·[i]?) hnames
    simp only [List.getElem?_map, List.getElem?_mapIdx, hparameter, hcriterion, Option.map_some,
      Option.some.injEq] at hname
    refine ⟨_, parameter, hcriterion, hparameter, hname, ?_⟩
    rw [hvalue, Criterion.bound]
    split
    · exact uppercased_upperStrings argument
    · rfl

/-- Two calls of a method have one text if they have the same sort and page. -/
theorem text_eq_of_planned (hreading : e.reading session' method = e.reading session method)
    (hsort : other.sort = call.sort) (hpage : other.page = call.page)
    (h : e.planned session method call = .ok query)
    (h' : e.planned session' method other = .ok query') :
    (render query').text = (render query).text := by
  obtain ⟨operation, hoperation, haction, hconnector, hcriteria, -, hpredicates⟩ :=
    Engine.exists_reading_of_planned h
  obtain ⟨operation', hoperation', haction', hconnector', hcriteria', -, hpredicates'⟩ :=
    Engine.exists_reading_of_planned h'
  rw [hreading, hoperation] at hoperation'
  cases hoperation'
  -- All of a predicate but its values comes from its criterion.
  have hquestions : ∀ {predicates : List Predicate},
      predicates.map Predicate.criterion = operation.criteria →
      (∀ predicate ∈ predicates,
        predicate.field = e.metadata.documentField predicate.property ∧ predicate.WellFormed) →
      predicates.map Predicate.question = operation.criteria.map
        fun criterion => (criterion, e.metadata.documentField criterion.property) := by
    intro predicates hcriteria hpredicates
    rw [← hcriteria, List.map_map]
    refine List.map_congr_left ?_
    intro predicate hmem
    exact Prod.ext rfl (hpredicates predicate hmem).1
  refine text_congr (haction'.trans haction.symm) (hconnector'.trans hconnector.symm) ?_ ?_
  · rw [hquestions hcriteria hpredicates, hquestions hcriteria' hpredicates']
  · obtain ⟨_, hread, hplan⟩ := bind_eq_ok_iff.mp h
    obtain ⟨_, hread', hplan'⟩ := bind_eq_ok_iff.mp h'
    cases hoperation.symm.trans hread
    cases hoperation.symm.trans (hreading.symm.trans hread')
    obtain ⟨order, _, hvalidate, -, -, rfl⟩ := e.plan_eq_ok_iff.mp hplan
    obtain ⟨order', _, hvalidate', -, -, rfl⟩ := e.plan_eq_ok_iff.mp hplan'
    rw [hsort, hpage] at hvalidate'
    exact Except.ok.inj (hvalidate'.symm.trans hvalidate)

end Sql

namespace Engine

variable {σ : Type} (e : Engine σ)

/-- **Arguments never show in the text.** Two accepted calls of a method with the same sort and page have
one text and one list of names, in whatever sessions they are made. There is one parameter for each
argument, at the same place. It is named after the property that takes the argument, and its value is the
argument, in upper case if it is a list that is compared without regard to case. -/
theorem text_independent_of_arguments {session session' later later' : Session σ}
    (hfaithful : e.Faithful session) (hfaithful' : e.Faithful session') {method : String}
    {arguments others : List Json} {sort : Option Sorting} {page : Option PageRequest}
    {query query' : Query}
    (h : (e.assemble method ⟨arguments, sort, page⟩).runOn session = (.ok query, later))
    (h' : (e.assemble method ⟨others, sort, page⟩).runOn session' = (.ok query', later')) :
    (Sql.render query').text = (Sql.render query).text ∧
    (Sql.render query').parameters.map (·.name) = (Sql.render query).parameters.map (·.name) ∧
    ∃ operation, Method.parse e.metadata method = .ok operation ∧
      Sql.Binds operation arguments (Sql.render query).parameters ∧
      Sql.Binds operation others (Sql.render query').parameters := by
  have hplanned := e.planned_of_assemble h
  have hplanned' := e.planned_of_assemble h'
  have hreading : e.reading session' method = e.reading session method :=
    (hfaithful' method).trans (hfaithful method).symm
  obtain ⟨operation, hoperation, htakers, hbinds⟩ := Sql.binds_of_planned hplanned
  obtain ⟨operation', hoperation', htakers', hbinds'⟩ := Sql.binds_of_planned hplanned'
  rw [hreading, hoperation] at hoperation'
  cases hoperation'
  refine ⟨Sql.text_eq_of_planned hreading (by rfl) (by rfl) hplanned hplanned', ?_, operation, ?_, hbinds,
    hbinds'⟩
  · rw [Sql.names_render, Sql.names_render, htakers, htakers']
  · rw [← hfaithful method, hoperation]

theorem text_independent_of_arguments_towns :
    let e := inMemory Town.metadata {}
    let session : Session MemoryStore := { store := Town.store }
    let method := "findByNameBetweenAndCountryInIgnoreCase"
    let call : Call := ⟨[.string "A", .string "K", .array [.string "no"]], none, none⟩
    let other : Call := ⟨[.string "B", .null, .array [.string "dk", .string "se"]], none, none⟩
    ∃ query query' later later',
      (e.assemble method call).runOn session = (.ok query, later) ∧
      (e.assemble method other).runOn session = (.ok query', later') ∧
      (Sql.render query').text = (Sql.render query).text ∧
      ∃ operation, Sql.Binds operation other.arguments (Sql.render query').parameters := by
  intro e session method call other
  have hfaithful : e.Faithful session := e.faithful_new Town.store
  have hparse : Method.parse e.metadata "findByNameBetweenAndCountryInIgnoreCase"
      = .ok ⟨method, .find, {}, .and,
        [⟨⟨["name"], .string⟩, .between, false⟩, ⟨⟨["country"], .string⟩, .isIn, true⟩], []⟩ := by
    with_unfolding_all rfl
  obtain ⟨query, hquery⟩ : ∃ query, e.planned session method call = .ok query :=
    ⟨_, hfaithful.planned_eq hparse⟩
  obtain ⟨query', hquery'⟩ : ∃ query, e.planned session method other = .ok query :=
    ⟨_, hfaithful.planned_eq hparse⟩
  obtain ⟨later, hrun, -⟩ := e.runOn_assemble method call session
  obtain ⟨later', hrun', -⟩ := e.runOn_assemble method other session
  rw [hquery] at hrun
  rw [hquery'] at hrun'
  obtain ⟨htext, -, operation, -, -, hbinds⟩ :=
    e.text_independent_of_arguments hfaithful hfaithful hrun hrun'
  exact ⟨query, query', later, later', hrun, hrun', htext, operation, hbinds⟩

end Engine

/-! ## Strings that are bound as they are -/

mutual

/-- All strings in a value, those in arrays and in members of objects included. -/
def Json.strings : Json → List String
  | .string s => [s]
  | .array elements => stringsOfElements elements
  | .object members => stringsOfMembers members
  | _ => []

def Json.stringsOfElements : List Json → List String
  | [] => []
  | x :: rest => x.strings ++ stringsOfElements rest

def Json.stringsOfMembers : List (String × Json) → List String
  | [] => []
  | (_, x) :: rest => x.strings ++ stringsOfMembers rest

end

/-- In a list that is compared without regard to case, the strings of objects are bound as they are. -/
theorem Engine.list_keeps_strings_of_objects :
    let e := inMemory Town.metadata {}
    let argument : Json := .array [.object [("a", .string "b")]]
    ∃ query later, (e.assemble "findByNameInIgnoreCase" { arguments := [argument] }).runOn
        { store := Town.store } = (.ok query, later) ∧
      ∃ parameter, (Sql.render query).parameters = [parameter] ∧ parameter.value.strings = ["b"] ∧
        argument.strings.map (fun s => String.ofList (Text.uppercase s.toList)) = ["B"] := by
  intro e argument
  have hparse : Method.parse e.metadata "findByNameInIgnoreCase" = .ok ⟨"findByNameInIgnoreCase",
      .find, {}, .and, [⟨⟨["name"], .string⟩, .isIn, true⟩], []⟩ := by with_unfolding_all rfl
  obtain ⟨later, hrun, -⟩ := e.runOn_assemble "findByNameInIgnoreCase" { arguments := [argument] }
    { store := Town.store }
  rw [(e.faithful_new Town.store).planned_eq hparse] at hrun
  exact ⟨_, later, hrun, _, rfl, rfl, by decide⟩

end DerivedQuery
