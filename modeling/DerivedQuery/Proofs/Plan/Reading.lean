import DerivedQuery.Proofs.Plan.Shape

/-!
# Reading a query back from its text

The text of a query that finds documents says everything about its predicates but their values: two
queries with one text have predicates that are tested alike, in the same order, joined by the same
connector, and order their results alike (`alike_of_text_eq`). The conditions are read one after the other
(`conditions_append_inj`): each of them ends before a blank or a closing parenthesis.
-/

namespace DerivedQuery

/-- The predicates are tested alike, on one field. They may differ in their values. -/
structure Predicate.Alike (predicate other : Predicate) : Prop where
  field : predicate.field = other.field
  operator : predicate.operator.standard = other.operator.standard
  ignoreCase : predicate.ignoreCase = other.ignoreCase

/-- The trees have predicates that are tested alike and join them alike. A single predicate is not
joined. -/
structure PredicateTree.Alike (tree other : PredicateTree) : Prop where
  predicates : List.Forall₂ Predicate.Alike tree.predicates other.predicates
  connector : 2 ≤ tree.predicates.length → tree.connector = other.connector

/-- What stores look at when they order results. -/
def OrderKey.ranking (key : OrderKey) : String × Direction := (key.field, key.direction)

namespace Sql

/-! ## Conditions -/

/-- What stands between two conditions. -/
def separator (connector : Connector) : String := " " ++ connector.name ++ " "

/-- The joined conditions of predicates, the first parameter being at a position. -/
def joined (connector : Connector) (position : Nat) (predicates : List Predicate) : List Char :=
  ((separator connector).intercalate (conditions position predicates)).toList

variable {connector connector' : Connector} {position position' : Nat}

theorem joined_singleton (predicate : Predicate) :
    joined connector position [predicate]
      = fill (predicate.blanks position) predicate.shape := by
  rw [joined, ← toList_condition, conditions, conditions, String.intercalate_singleton]

theorem joined_cons_cons (predicate next : Predicate) (rest : List Predicate) :
    joined connector position (predicate :: next :: rest)
      = fill (predicate.blanks position) predicate.shape ++ ((separator connector).toList ++
          joined connector (position + (boundValues predicate).length) (next :: rest)) := by
  rw [joined, joined, ← toList_condition, String.toList_intercalate, String.toList_intercalate,
    conditions, conditions, List.map_cons, List.map_cons, List.intercalate_cons_cons,
    List.append_assoc]

theorem separator_append_inj {rest rest' : List Char}
    (h : (separator connector).toList ++ rest = (separator connector').toList ++ rest') :
    connector = connector' ∧ rest = rest' := by
  cases connector <;> cases connector' <;> simp_all [separator, Connector.name]

theorem delimited_separator_append (connector : Connector) (rest : List Char) :
    Delimited ((separator connector).toList ++ rest) := by
  cases connector <;> simp [separator, Connector.name, Delimited, isDelimiter]

/-- **Conditions with one text are tested alike.** -/
theorem condition_append_inj {predicate other : Predicate} (h : predicate.WellFormed)
    (hother : other.WellFormed) {rest rest' : List Char} (hrest : Delimited rest)
    (hrest' : Delimited rest')
    (htext : fill (predicate.blanks position) predicate.shape ++ rest
      = fill (other.blanks position') other.shape ++ rest') :
    predicate.Alike other ∧ rest = rest' := by
  rcases predicate.shape_eq_or_parts h hother with hparts | ⟨hoperator, hcase, hshape⟩
  · exact absurd hparts (not_parts_of_fill_append predicate.isSpaced_shape other.isSpaced_shape hrest
      hrest' htext)
  · rw [← hshape] at htext
    obtain ⟨hfield, heq⟩ := fill_append_inj predicate.isSpaced_shape hrest hrest' htext
    exact ⟨⟨hfield predicate.field_mem_shape, hoperator, hcase⟩, heq⟩

/-- Conditions are followed by further ones or by a closing parenthesis, which no separator starts
with. -/
theorem joined_append_inj {predicates others : List Predicate}
    (hpredicates : ∀ predicate ∈ predicates, predicate.WellFormed)
    (hothers : ∀ other ∈ others, other.WellFormed) (hne : predicates ≠ []) (hne' : others ≠ [])
    {rest rest' : List Char}
    (h : joined connector position predicates ++ ')' :: rest
      = joined connector' position' others ++ ')' :: rest') :
    List.Forall₂ Predicate.Alike predicates others ∧
      (2 ≤ predicates.length → connector = connector') ∧ rest = rest' := by
  have hclose : ∀ rest, Delimited (')' :: rest) := by
    rintro rest _ ⟨⟩
    rfl
  induction predicates generalizing others position position' with
  | nil => exact absurd rfl hne
  | cons predicate predicates ih =>
    cases others with
    | nil => exact absurd rfl hne'
    | cons other others =>
      obtain ⟨hpredicate, hpredicates⟩ := List.forall_mem_cons.mp hpredicates
      obtain ⟨hother, hothers⟩ := List.forall_mem_cons.mp hothers
      cases predicates with
      | nil =>
        cases others with
        | nil =>
          rw [joined_singleton, joined_singleton] at h
          obtain ⟨halike, heq⟩ := condition_append_inj hpredicate hother (hclose _) (hclose _) h
          exact ⟨.cons halike .nil, nofun, List.tail_eq_of_cons_eq heq⟩
        | cons next others =>
          rw [joined_singleton, joined_cons_cons, List.append_assoc, List.append_assoc] at h
          obtain ⟨-, heq⟩ := condition_append_inj hpredicate hother (hclose _)
            (delimited_separator_append _ _) h
          simp [separator] at heq
      | cons next predicates =>
        cases others with
        | nil =>
          rw [joined_singleton, joined_cons_cons, List.append_assoc, List.append_assoc] at h
          obtain ⟨-, heq⟩ := condition_append_inj hpredicate hother
            (delimited_separator_append _ _) (hclose _) h
          simp [separator] at heq
        | cons next' others =>
          rw [joined_cons_cons, joined_cons_cons, List.append_assoc, List.append_assoc,
            List.append_assoc, List.append_assoc] at h
          obtain ⟨halike, htail⟩ := condition_append_inj hpredicate hother
            (delimited_separator_append _ _) (delimited_separator_append _ _) h
          obtain ⟨rfl, htail⟩ := separator_append_inj htail
          obtain ⟨hall, -, heq⟩ := ih hpredicates hothers (List.cons_ne_nil _ _)
            (List.cons_ne_nil _ _) htail
          exact ⟨.cons halike hall, fun _ => rfl, heq⟩

/-! ## Queries -/

theorem toList_filter {tree : PredicateTree} (h : tree.predicates ≠ []) :
    (filter tree).toList
      = " WHERE (".toList ++ (joined tree.connector 0 tree.predicates ++ [')']) := by
  rw [filter, if_neg (by simpa using h)]
  simp [joined, separator]

theorem filter_eq_empty {tree : PredicateTree} (h : tree.predicates = []) : filter tree = "" := by
  rw [filter, h]
  rfl

theorem toList_ordering_some (key : OrderKey) :
    (ordering .find (some key)).toList
      = " ORDER BY ".toList ++ ((fieldRef key.field).toList ++ (' ' :: key.direction.name.toList)) := by
  simp [ordering]

/-- The text of an order says by which field and in which direction. -/
theorem ranking_of_ordering_eq {order other : Option OrderKey}
    (h : ordering .find order = ordering .find other) :
    order.map OrderKey.ranking = other.map OrderKey.ranking := by
  have h := congrArg String.toList h
  cases order with
  | none =>
    cases other with
    | none => rfl
    | some key =>
      rw [toList_ordering_some] at h
      simp [ordering] at h
  | some key =>
    cases other with
    | none =>
      rw [toList_ordering_some] at h
      simp [ordering] at h
    | some key' =>
      rw [toList_ordering_some, toList_ordering_some] at h
      have hblank : ∀ rest, Delimited (' ' :: rest) := by
        rintro rest _ ⟨⟩
        rfl
      obtain ⟨hfield, hdirection⟩ := fieldRef_append_inj (hblank _) (hblank _)
        (List.append_cancel_left h)
      have hname : key.direction.name = key'.direction.name :=
        String.toList_inj.mp (List.tail_eq_of_cons_eq hdirection)
      have hdirection : key.direction = key'.direction := by
        cases hkey : key.direction <;> cases hkey' : key'.direction <;>
          simp_all [Direction.name]
      rw [Option.map_some, Option.map_some, OrderKey.ranking, OrderKey.ranking, hfield, hdirection]

/-- No order starts as a condition does. -/
theorem ordering_ne_filter_append {tree : PredicateTree} (h : tree.predicates ≠ [])
    (order : Option OrderKey) (rest : List Char) :
    (ordering .find order).toList ≠ (filter tree).toList ++ rest := by
  rw [toList_filter h]
  cases order with
  | none => simp [ordering]
  | some key => simp [toList_ordering_some]

/-- **Two queries with one text are tested alike and ordered alike.** -/
theorem alike_of_text_eq {query other : Query}
    (hquery : ∀ predicate ∈ query.tree.predicates, predicate.WellFormed)
    (hother : ∀ predicate ∈ other.tree.predicates, predicate.WellFormed)
    (hfind : query.action = .find) (hfind' : other.action = .find)
    (h : (render query).text = (render other).text) :
    query.tree.Alike other.tree ∧ query.order.map OrderKey.ranking = other.order.map OrderKey.ranking := by
  have h := congrArg String.toList h
  simp only [render, hfind, hfind', String.toList_append, List.append_assoc] at h
  replace h := List.append_cancel_left h
  by_cases hempty : query.tree.predicates = []
  · by_cases hempty' : other.tree.predicates = []
    · rw [filter_eq_empty hempty, filter_eq_empty hempty'] at h
      refine ⟨⟨?_, ?_⟩, ranking_of_ordering_eq (String.toList_inj.mp h)⟩
      · rw [hempty, hempty']
        exact .nil
      · rw [hempty]
        exact nofun
    · rw [filter_eq_empty hempty] at h
      exact absurd h (ordering_ne_filter_append hempty' _ _)
  · by_cases hempty' : other.tree.predicates = []
    · rw [filter_eq_empty hempty'] at h
      exact absurd h.symm (ordering_ne_filter_append hempty _ _)
    · simp only [toList_filter hempty, toList_filter hempty', List.append_assoc] at h
      obtain ⟨hpredicates, hconnector, horder⟩ :=
        joined_append_inj hquery hother hempty hempty' (List.append_cancel_left h)
      exact ⟨⟨hpredicates, hconnector⟩, ranking_of_ordering_eq (String.toList_inj.mp horder)⟩

end Sql

end DerivedQuery
