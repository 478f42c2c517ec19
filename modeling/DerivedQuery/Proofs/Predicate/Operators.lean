import DerivedQuery.Predicate.Eval

/-!
# How operators are related

A predicate tests the field of a document, unless the field is missing: then only `isNull` holds
(`Predicate.holds_of_missing`, `Predicate.holds_of_field`). The tests themselves are related whatever the
values are. A negated operator is the negation of its operator only where the operator makes sense:
`notIn` needs a list to look into, `notContaining` a value that can contain others, and the four range
operators need two values that have an order (`Json.Comparable`). Everywhere else both of a pair fail.

`Predicate.operators_related` puts these laws together for a whole predicate, and adds what a tree of
predicates says.
-/

namespace DerivedQuery

/-! ## Values with an order -/

namespace Json

/-- The values have an order: both are truth values, both are numbers, or both are texts. -/
def Comparable : Json → Json → Prop
  | bool _, bool _ | number _, number _ | string _, string _ => True
  | _, _ => False

/-- Values have an order just where neither is `null` and they compare. -/
theorem comparable_iff {a b : Json} :
    a.Comparable b ↔ a.isNull = false ∧ b.isNull = false ∧ (a.compare? b).isSome := by
  cases a <;> cases b <;> simp [Comparable, isNull, compare?]

end Json

namespace Predicate

/-- What the field of a document is compared with. -/
def argument (predicate : Predicate) : Json := predicate.values[0]?.getD .null

/-- The other bound of a predicate that has two. -/
def upperBound (predicate : Predicate) : Json := predicate.values[1]?.getD .null

variable {predicate : Predicate} {document : Document} {value first second : Json}

/-- A missing field is as good as `null`, and satisfies nothing else. -/
theorem holds_of_missing (predicate : Predicate) (h : document.field? predicate.field = none) :
    predicate.holds document = (predicate.operator == .isNull) := by
  rw [holds, h]

theorem holds_of_field (predicate : Predicate) (h : document.field? predicate.field = some value) :
    predicate.holds document
      = test predicate.operator predicate.ignoreCase value predicate.argument predicate.upperBound := by
  rw [holds, h]
  rfl

/-! ## Tests -/

variable (ignoreCase : Bool)

theorem contains_of_not_container (h : isContainer value = false) :
    contains ignoreCase value first = false := by
  cases value with
  | string _ | array _ => cases h
  | _ => rfl

theorem test_notContaining :
    test .notContaining ignoreCase value first second
      = (isContainer value && !test .containing ignoreCase value first second) := rfl

theorem isAmong_of_not_array (h : isArray first = false) :
    isAmong ignoreCase value first = false := by
  cases first with
  | array _ => cases h
  | _ => rfl

theorem test_notIn :
    test .notIn ignoreCase value first second
      = (isArray first && !test .isIn ignoreCase value first second) := rfl

/-- A value is in a list if it equals one of its elements. -/
theorem test_isIn_array_iff (elements : List Json) :
    test .isIn ignoreCase value (.array elements) second ↔
      ∃ element ∈ elements, test .equal ignoreCase value element second :=
  List.any_eq_true

/-- A list contains what equals one of its elements. -/
theorem test_containing_array_iff (elements : List Json) :
    test .containing ignoreCase (.array elements) first second ↔
      ∃ element ∈ elements, test .equal ignoreCase element first second :=
  List.any_eq_true

/-- Between two bounds is what is neither below the one nor above the other. -/
theorem test_between :
    test .between ignoreCase value first second
      = (test .greaterThanEqual ignoreCase value first .null
        && test .lessThanEqual ignoreCase value second .null) := rfl

/-! ### Ranges -/

theorem compares_of_not_comparable (accept : Ordering → Bool) (h : ¬ value.Comparable first) :
    compares accept value first = false := by
  rw [Json.comparable_iff] at h
  unfold compares
  cases hvalue : value.isNull with
  | true => rfl
  | false =>
    cases hfirst : first.isNull with
    | true => rfl
    | false =>
      cases hcompare : value.compare? first with
      | none => rfl
      | some ordering => exact absurd ⟨hvalue, hfirst, by rw [hcompare]; rfl⟩ h

/-- What is accepted of an order is not what is accepted of it by the opposite test. -/
theorem compares_not {accept reject : Ordering → Bool} (h : value.Comparable first)
    (hnot : ∀ ordering, accept ordering = !reject ordering) :
    compares accept value first = !compares reject value first := by
  obtain ⟨hvalue, hfirst, hcompare⟩ := Json.comparable_iff.mp h
  obtain ⟨ordering, hordering⟩ := Option.isSome_iff_exists.mp hcompare
  simp [compares, hvalue, hfirst, hordering, hnot]

/-- The operators that put a value below a bound or above it. -/
def rangeOperators : List Operator := [.greaterThan, .greaterThanEqual, .lessThan, .lessThanEqual]

theorem test_of_not_comparable {operator : Operator} (hoperator : operator ∈ rangeOperators)
    (h : ¬ value.Comparable first) : test operator ignoreCase value first second = false := by
  simp only [rangeOperators, List.mem_cons, List.not_mem_nil, or_false] at hoperator
  rcases hoperator with rfl | rfl | rfl | rfl
  all_goals exact compares_of_not_comparable _ h

theorem test_greaterThan (h : value.Comparable first) :
    test .greaterThan ignoreCase value first second
      = !test .lessThanEqual ignoreCase value first second :=
  compares_not h fun ordering => by cases ordering <;> rfl

theorem test_lessThan (h : value.Comparable first) :
    test .lessThan ignoreCase value first second
      = !test .greaterThanEqual ignoreCase value first second :=
  compares_not h fun ordering => by cases ordering <;> rfl

/-! ## Predicates and trees -/

/-- The predicate with another operator and other values. -/
def asking (predicate : Predicate) (operator : Operator) (values : List Json) : Predicate :=
  { predicate with operator, values }

theorem holds_asking_of_field (h : document.field? predicate.field = some value) (operator : Operator)
    (values : List Json) :
    (predicate.asking operator values).holds document
      = test operator predicate.ignoreCase value (values[0]?.getD .null) (values[1]?.getD .null) :=
  (predicate.asking operator values).holds_of_field h

theorem holds_asking_of_missing (h : document.field? predicate.field = none) (operator : Operator)
    (values : List Json) :
    (predicate.asking operator values).holds document = (operator == .isNull) :=
  (predicate.asking operator values).holds_of_missing h

end Predicate

theorem PredicateTree.holds_and_iff {predicates : List Predicate} {document : Document} :
    (PredicateTree.mk .and predicates).holds document ↔
      ∀ predicate ∈ predicates, predicate.holds document := by
  cases predicates with
  | nil => simp [holds]
  | cons first rest => simp [holds]

theorem PredicateTree.holds_or_iff {predicates : List Predicate} {document : Document} :
    (PredicateTree.mk .or predicates).holds document ↔
      predicates = [] ∨ ∃ predicate ∈ predicates, predicate.holds document := by
  cases predicates with
  | nil => simp [holds]
  | cons first rest => simp [holds]

namespace Predicate

/-- **How the operators of a predicate are related**, for any field, any values and with or without regard
to case. The first part holds of every document, the second of one without the field, the third of one
with it, and the last one is about trees. -/
theorem operators_related (predicate : Predicate) (document : Document) :
    let holds := fun (operator : Operator) (values : List Json) =>
      (predicate.asking operator values).holds document
    (∀ values, holds .isNull values = !holds .isNotNull values ∧
      holds .before values = holds .lessThan values ∧
      holds .after values = holds .greaterThan values) ∧
    (∀ low high, holds .between [low, high]
      = (holds .greaterThanEqual [low] && holds .lessThanEqual [high])) ∧
    (document.field? predicate.field = none →
      ∀ operator, operator ≠ .isNull → ∀ values, holds operator values = false) ∧
    (∀ value, document.field? predicate.field = some value → ∀ values,
      let argument := values[0]?.getD .null
      holds .equal values = !holds .notEqual values ∧
      (isArray argument = true → holds .isIn values = !holds .notIn values) ∧
      (isArray argument = false → holds .isIn values = false ∧ holds .notIn values = false) ∧
      (isContainer value = true → holds .containing values = !holds .notContaining values) ∧
      (isContainer value = false →
        holds .containing values = false ∧ holds .notContaining values = false) ∧
      (∀ elements, argument = .array elements →
        (holds .isIn values ↔ ∃ element ∈ elements, holds .equal [element])) ∧
      (∀ elements, value = .array elements →
        (holds .containing values ↔
          ∃ element ∈ elements, test .equal predicate.ignoreCase element argument .null)) ∧
      (value.Comparable argument →
        holds .greaterThan values = !holds .lessThanEqual values ∧
        holds .lessThan values = !holds .greaterThanEqual values) ∧
      (¬ value.Comparable argument →
        ∀ operator ∈ rangeOperators, holds operator values = false)) ∧
    ∀ predicates,
      ((PredicateTree.mk .and predicates).holds document ↔
        ∀ predicate ∈ predicates, predicate.holds document) ∧
      ((PredicateTree.mk .or predicates).holds document ↔
        predicates = [] ∨ ∃ predicate ∈ predicates, predicate.holds document) := by
  intro holds
  refine ⟨?_, ?_, ?_, ?_, fun _ => ⟨PredicateTree.holds_and_iff, PredicateTree.holds_or_iff⟩⟩
  · intro values
    cases hfield : document.field? predicate.field with
    | none =>
      simp only [holds, holds_asking_of_missing hfield]
      exact ⟨rfl, rfl, rfl⟩
    | some value =>
      simp only [holds, holds_asking_of_field hfield]
      exact ⟨(Bool.not_not _).symm, rfl, rfl⟩
  · intro low high
    cases hfield : document.field? predicate.field with
    | none =>
      simp only [holds, holds_asking_of_missing hfield]
      rfl
    | some value =>
      simp only [holds, holds_asking_of_field hfield]
      exact test_between _
  · intro hfield operator hne values
    exact (holds_asking_of_missing hfield operator values).trans (beq_eq_false_iff_ne.mpr hne)
  · intro value hfield values
    simp only [holds, holds_asking_of_field hfield]
    generalize values[0]?.getD .null = argument
    generalize values[1]?.getD .null = second
    refine ⟨(Bool.not_not _).symm, ?_, ?_, ?_, ?_, ?_, ?_, ?_, ?_⟩
    · intro harray
      rw [test_notIn, harray, Bool.true_and, Bool.not_not]
    · intro harray
      rw [test_notIn, harray]
      exact ⟨isAmong_of_not_array _ harray, rfl⟩
    · intro hcontainer
      rw [test_notContaining, hcontainer, Bool.true_and, Bool.not_not]
    · intro hcontainer
      rw [test_notContaining, hcontainer]
      exact ⟨contains_of_not_container _ hcontainer, rfl⟩
    · rintro elements rfl
      exact test_isIn_array_iff _ elements
    · rintro elements rfl
      exact test_containing_array_iff _ elements
    · intro hcomparable
      exact ⟨test_greaterThan _ hcomparable, test_lessThan _ hcomparable⟩
    · intro hcomparable operator hoperator
      exact test_of_not_comparable _ hoperator hcomparable

/-- A document with a list, and one without: an element is in the one, and not missing from the other. -/
theorem operators_related_tags :
    let predicate : Predicate :=
      { property := ⟨["tags"], .array .string⟩, field := "tags", operator := .containing
        ignoreCase := true, values := [] }
    let document : Document := .object [("tags", .array [.string "Rust"])]
    let holds := fun (operator : Operator) (values : List Json) (document : Document) =>
      (predicate.asking operator values).holds document
    holds .containing [.string "rust"] document = true ∧
      holds .notContaining [.string "rust"] document = false ∧
      holds .notContaining [.string "rust"] (.object []) = false := by
  intro predicate document holds
  have hsegments : Text.segments predicate.field = ["tags"] := by decide
  have hfield : document.field? predicate.field = some (.array [.string "Rust"]) := by
    rw [Document.field?, hsegments]
    rfl
  have hmissing : Document.field? (.object []) predicate.field = none := by
    rw [Document.field?, hsegments]
    rfl
  obtain ⟨-, -, -, hpresent, -⟩ := predicate.operators_related document
  obtain ⟨-, -, hfails, -⟩ := predicate.operators_related (.object [])
  obtain ⟨-, -, -, hnot, -, -, hcontaining, -⟩ := hpresent _ hfield [.string "rust"]
  have hcontains : holds .containing [.string "rust"] document = true :=
    (hcontaining _ rfl).mpr ⟨_, List.mem_singleton_self _, by decide +kernel⟩
  have hnegated := (hnot rfl).symm.trans hcontains
  exact ⟨hcontains, by simpa using hnegated, hfails hmissing .notContaining nofun _⟩

end Predicate

end DerivedQuery
