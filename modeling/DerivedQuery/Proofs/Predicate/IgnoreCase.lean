import DerivedQuery.Proofs.Partition.Binding
import DerivedQuery.Proofs.Plan.Meaning
import DerivedQuery.Proofs.Predicate.Operators
import DerivedQuery.Proofs.Text.Lowercase

/-!
# What ignoring case adds

Values that are equal are equal without regard to case, so ignoring case only widens `equal` and `isIn`,
and only narrows their negations. A text that has another one in it need not have it in lower case: the
lower case of the other one is that of the part only if no capital sigma is cut off from its word
(`Text.CutsSigma`). Where it is cut off at all places where the argument stands
(`Predicate.CutsSigma`), `startsWith` and `endsWith` hold with regard to case and not without, and so may
`containing`; everywhere else ignoring case widens them too (`Predicate.ignoreCase_widens`).
-/

namespace DerivedQuery

/-- Where an operator looks for its argument in a text: at the start, at the end or anywhere. -/
def Operator.LooksBetween (operator : Operator) (before behind : List Char) : Prop :=
  match operator with
  | .startsWith => before = []
  | .endsWith => behind = []
  | .containing | .notContaining => True
  | _ => False

/-- In lower case, a part of a text stands where it stood. -/
theorem Operator.LooksBetween.lowercase {operator : Operator} {before behind : List Char}
    (h : operator.LooksBetween before behind) (inWord followed inWord' : Bool) :
    operator.LooksBetween (Text.lowercasePart inWord followed before)
      (Text.lowercaseFrom inWord' behind) := by
  cases operator with
  | startsWith =>
    obtain rfl : before = [] := h
    rfl
  | endsWith =>
    obtain rfl : behind = [] := h
    rfl
  | _ => exact h

/-- The value is a text, and wherever the operator finds its argument in the text, a capital sigma is cut
off from its word. -/
def Operator.CutsSigma (operator : Operator) (value argument : Json) : Prop :=
  ∃ text part, value = .string text ∧ argument = .string part ∧
    ∀ before behind, operator.LooksBetween before behind →
      text.toList = before ++ part.toList ++ behind → Text.CutsSigma before part.toList behind

namespace Predicate

/-- The predicate with regard to case. -/
def sensitive (predicate : Predicate) : Predicate := { predicate with ignoreCase := false }

/-- The predicate without regard to case. -/
def insensitive (predicate : Predicate) : Predicate := { predicate with ignoreCase := true }

/-- Wherever the predicate finds its argument in the document, a capital sigma is cut off from its
word. -/
def CutsSigma (predicate : Predicate) (document : Document) : Prop :=
  ∃ value, document.field? predicate.field = some value ∧
    predicate.operator.CutsSigma value predicate.argument

variable {operator : Operator} {value argument second : Json} {text part : String}
  {before behind : List Char}

/-! ## Equality -/

theorem equals_true_of_equals_false {a b : Json} (h : equals false a b) : equals true a b :=
  equals_of_same (by rwa [equals_false] at h)

theorem any_equals_true_of_false {elements : List Json} (h : elements.any (equals false · argument)) :
    elements.any (equals true · argument) := by
  obtain ⟨element, hmem, hequal⟩ := List.any_eq_true.mp h
  exact List.any_eq_true.mpr ⟨element, hmem, equals_true_of_equals_false hequal⟩

theorem isAmong_true_of_false (h : isAmong false value argument) : isAmong true value argument := by
  cases argument with
  | array elements =>
    obtain ⟨element, hmem, hequal⟩ := List.any_eq_true.mp h
    exact List.any_eq_true.mpr ⟨element, hmem, equals_true_of_equals_false hequal⟩
  | _ => cases h

/-! ## Texts -/

/-- An operator that looks for its argument in a text holds if the argument stands where it looks. -/
theorem test_string_iff (hoperator : operator ∈ [.containing, .startsWith, .endsWith])
    (ignoreCase : Bool) :
    test operator ignoreCase (.string text) (.string part) second ↔
      ∃ before behind, operator.LooksBetween before behind ∧
        fold ignoreCase text = before ++ fold ignoreCase part ++ behind := by
  simp only [List.mem_cons, List.not_mem_nil, or_false] at hoperator
  rcases hoperator with rfl | rfl | rfl
  · simp only [test, contains, testTexts, Text.hasInfix_iff, Operator.LooksBetween, true_and,
      List.IsInfix, eq_comm (b := fold ignoreCase text)]
  · simp only [test, testTexts, List.isPrefixOf_iff_prefix, Operator.LooksBetween, List.IsPrefix]
    constructor
    · rintro ⟨behind, h⟩
      exact ⟨[], behind, rfl, h.symm⟩
    · rintro ⟨_, behind, rfl, h⟩
      exact ⟨behind, h.symm⟩
  · simp only [test, testTexts, List.isSuffixOf_iff_suffix, Operator.LooksBetween, List.IsSuffix]
    constructor
    · rintro ⟨before, h⟩
      exact ⟨before, [], rfl, by rw [List.append_nil, h]⟩
    · rintro ⟨before, _, rfl, h⟩
      exact ⟨before, by rw [h, List.append_nil]⟩

/-- **A text is found in lower case where it stands, unless a capital sigma is cut off there.** -/
theorem test_true_of_not_cutsSigma (hoperator : operator ∈ [.containing, .startsWith, .endsWith])
    (hlooks : operator.LooksBetween before behind)
    (hplace : text.toList = before ++ part.toList ++ behind)
    (hcut : ¬ Text.CutsSigma before part.toList behind) :
    test operator true (.string text) (.string part) second := by
  obtain ⟨middle, hlower, -, hmiddle⟩ := Text.lowercase_append_append before part.toList behind
  rw [hmiddle.mpr hcut, ← hplace] at hlower
  exact (test_string_iff hoperator true).mpr ⟨_, _, hlooks.lowercase _ _ _, hlower⟩

/-- At the start and at the end of a text there is one place for a text of some length. -/
theorem looksBetween_unique {before' behind' middle middle' : List Char}
    (hoperator : operator ∈ [.startsWith, .endsWith]) (hlooks : operator.LooksBetween before behind)
    (hlooks' : operator.LooksBetween before' behind')
    (h : before ++ middle ++ behind = before' ++ middle' ++ behind')
    (hlength : middle.length = middle'.length) : middle = middle' := by
  simp only [List.mem_cons, List.not_mem_nil, or_false] at hoperator
  rcases hoperator with rfl | rfl
  · obtain rfl : before = [] := hlooks
    obtain rfl : before' = [] := hlooks'
    exact (List.append_inj h hlength).1
  · obtain rfl : behind = [] := hlooks
    obtain rfl : behind' = [] := hlooks'
    simp only [List.append_nil] at h
    exact (List.append_inj' h hlength).2

/-- At the start and at the end of a text nothing is found where a capital sigma is cut off. -/
theorem not_cutsSigma_of_test_true (hoperator : operator ∈ [.startsWith, .endsWith])
    (hlooks : operator.LooksBetween before behind)
    (hplace : text.toList = before ++ part.toList ++ behind)
    (h : test operator true (.string text) (.string part) second) :
    ¬ Text.CutsSigma before part.toList behind := by
  obtain ⟨middle, hlower, hlength, hmiddle⟩ :=
    Text.lowercase_append_append before part.toList behind
  have hfind : operator ∈ [.containing, .startsWith, .endsWith] := List.mem_cons_of_mem _ hoperator
  obtain ⟨before', behind', hlooks', hfold⟩ := (test_string_iff hfind true).mp h
  rw [← hplace] at hlower
  have hsame : _ = before' ++ Text.lowercase part.toList ++ behind' := hlower.symm.trans hfold
  exact hmiddle.mp
    (looksBetween_unique hoperator (hlooks.lowercase _ _ _) hlooks' hsame hlength)

/-! ## Values -/

theorem strings_of_testTexts {ignoreCase : Bool} {rule : List Char → List Char → Bool}
    (h : testTexts ignoreCase rule value argument) :
    ∃ text part, value = .string text ∧ argument = .string part := by
  unfold testTexts at h
  split at h
  · exact ⟨_, _, rfl, rfl⟩
  · cases h

/-- These operators hold of two texts, and `containing` of a list. -/
theorem strings_or_array_of_test (hoperator : operator ∈ [.containing, .startsWith, .endsWith])
    {ignoreCase : Bool} (h : test operator ignoreCase value argument second) :
    (∃ text part, value = .string text ∧ argument = .string part) ∨
      operator = .containing ∧ ∃ elements, value = .array elements := by
  simp only [List.mem_cons, List.not_mem_nil, or_false] at hoperator
  rcases hoperator with rfl | rfl | rfl
  · rw [test] at h
    unfold contains at h
    split at h
    · exact .inr ⟨rfl, _, rfl⟩
    · exact .inl (strings_of_testTexts h)
  · rw [test] at h
    exact .inl (strings_of_testTexts h)
  · rw [test] at h
    exact .inl (strings_of_testTexts h)

/-- What is found with regard to case is found without, unless a capital sigma is cut off wherever it is
found. -/
theorem test_true_of_false (hoperator : operator ∈ [.containing, .startsWith, .endsWith])
    (h : test operator false value argument second) (hcut : ¬ operator.CutsSigma value argument) :
    test operator true value argument second := by
  rcases strings_or_array_of_test hoperator h with ⟨text, part, rfl, rfl⟩ | ⟨rfl, elements, rfl⟩
  · by_contra hnot
    refine hcut ⟨text, part, rfl, rfl, fun before behind hlooks hplace => ?_⟩
    by_contra hkept
    exact hnot (test_true_of_not_cutsSigma hoperator hlooks hplace hkept)
  · exact any_equals_true_of_false h

/-- At the start and at the end of a text that is so just if no capital sigma is cut off. -/
theorem test_true_iff_of_false (hoperator : operator ∈ [.startsWith, .endsWith])
    (h : test operator false value argument second) :
    test operator true value argument second ↔ ¬ operator.CutsSigma value argument := by
  have hfind : operator ∈ [.containing, .startsWith, .endsWith] := List.mem_cons_of_mem _ hoperator
  refine ⟨?_, test_true_of_false hfind h⟩
  rintro htrue ⟨text, part, rfl, rfl, hcut⟩
  obtain ⟨before, behind, hlooks, hplace⟩ := (test_string_iff hfind false).mp h
  exact not_cutsSigma_of_test_true hoperator hlooks hplace htrue (hcut before behind hlooks hplace)

/-- Only an argument with a capital sigma can have one cut off where it is found. -/
theorem sigma_of_cutsSigma (hoperator : operator ∈ [.containing, .startsWith, .endsWith])
    (h : test operator false value argument second) (hcut : operator.CutsSigma value argument) :
    ∃ part, argument = .string part ∧ 'Σ' ∈ part.toList := by
  obtain ⟨text, part, rfl, rfl, hcut⟩ := hcut
  obtain ⟨before, behind, hlooks, hplace⟩ := (test_string_iff hoperator false).mp h
  exact ⟨part, rfl, (hcut before behind hlooks hplace).mem⟩

/-! ## Predicates -/

variable {predicate : Predicate} {document : Document}

/-- A predicate holds with case taken one way if its test of each value does that holds the other way. -/
theorem holds_of_test {ignoreCase other : Bool}
    (htest : ∀ value, document.field? predicate.field = some value →
      test predicate.operator ignoreCase value predicate.argument predicate.upperBound →
      test predicate.operator other value predicate.argument predicate.upperBound)
    (h : ({ predicate with ignoreCase } : Predicate).holds document) :
    ({ predicate with ignoreCase := other } : Predicate).holds document := by
  cases hfield : document.field? predicate.field with
  | none =>
    rw [holds_of_missing _ (by exact hfield)] at h
    rwa [holds_of_missing _ (by exact hfield)]
  | some value =>
    rw [holds_of_field _ (by exact hfield)] at h
    rw [holds_of_field _ (by exact hfield)]
    exact htest value hfield h

/-- A predicate that looks for its argument in a text holds only of documents that have the field. -/
theorem exists_test_of_holds (hoperator : predicate.operator ∈ [.containing, .startsWith, .endsWith])
    {ignoreCase : Bool} (h : ({ predicate with ignoreCase } : Predicate).holds document) :
    ∃ value, document.field? predicate.field = some value ∧
      test predicate.operator ignoreCase value predicate.argument predicate.upperBound := by
  cases hfield : document.field? predicate.field with
  | none =>
    rw [holds_of_missing _ (by exact hfield), beq_iff_eq] at h
    simp [show predicate.operator = .isNull from h] at hoperator
  | some value =>
    rw [holds_of_field _ (by exact hfield)] at h
    exact ⟨value, rfl, h⟩

/-- **Ignoring case only widens, unless a capital sigma is cut off from its word.** Equality and
membership in a list are widened, and their negations narrowed. So is what is found in a text, unless a
capital sigma is cut off at each place where it is found; at the start and at the end of a text nothing is
found then. Only arguments with a capital sigma are affected. -/
theorem ignoreCase_widens (predicate : Predicate) (document : Document) :
    (predicate.operator ∈ [.equal, .isIn] →
      predicate.sensitive.holds document → predicate.insensitive.holds document) ∧
    (predicate.operator ∈ [.notEqual, .notIn] →
      predicate.insensitive.holds document → predicate.sensitive.holds document) ∧
    (predicate.operator ∈ [.containing, .startsWith, .endsWith] →
      predicate.sensitive.holds document → ¬ predicate.CutsSigma document →
      predicate.insensitive.holds document) ∧
    (predicate.operator = .notContaining →
      predicate.insensitive.holds document → ¬ predicate.CutsSigma document →
      predicate.sensitive.holds document) ∧
    (predicate.operator ∈ [.startsWith, .endsWith] →
      predicate.sensitive.holds document → predicate.CutsSigma document →
      predicate.insensitive.holds document = false) ∧
    (predicate.operator ∈ [.containing, .startsWith, .endsWith] →
      predicate.sensitive.holds document → predicate.CutsSigma document →
      ∃ part, predicate.argument = .string part ∧ 'Σ' ∈ part.toList) := by
  refine ⟨?_, ?_, ?_, ?_, ?_, ?_⟩
  · intro hoperator
    refine holds_of_test fun value _ htest => ?_
    rcases List.mem_pair.mp hoperator with hoperator | hoperator
    · rw [hoperator] at htest ⊢
      exact equals_true_of_equals_false htest
    · rw [hoperator] at htest ⊢
      exact isAmong_true_of_false htest
  · intro hoperator
    refine holds_of_test fun value _ htest => ?_
    rcases List.mem_pair.mp hoperator with hoperator | hoperator
    · rw [hoperator] at htest ⊢
      simp only [test, Bool.not_eq_true'] at htest ⊢
      exact Bool.eq_false_of_not_eq_true fun h => by simp [equals_true_of_equals_false h] at htest
    · rw [hoperator] at htest ⊢
      simp only [test, Bool.and_eq_true, Bool.not_eq_true'] at htest ⊢
      exact ⟨htest.1, Bool.eq_false_of_not_eq_true fun h => by
        simp [isAmong_true_of_false h] at htest⟩
  · intro hoperator h hcut
    refine holds_of_test (fun value hfield htest => ?_) h
    exact test_true_of_false hoperator htest fun hcuts => hcut ⟨value, hfield, hcuts⟩
  · intro hoperator h hcut
    refine holds_of_test (fun value hfield htest => ?_) h
    rw [hoperator, test_notContaining] at htest ⊢
    rw [Bool.and_eq_true, Bool.not_eq_true'] at htest ⊢
    refine ⟨htest.1, Bool.eq_false_of_not_eq_true fun hfound => ?_⟩
    have hcontaining : Operator.containing ∈ [.containing, .startsWith, .endsWith] := by simp
    have htrue := test_true_of_false hcontaining hfound fun hcuts =>
      hcut ⟨value, hfield, by rwa [hoperator]⟩
    rw [htrue] at htest
    cases htest.2
  · rintro hoperator h ⟨value, hfield, hcuts⟩
    refine Bool.eq_false_of_not_eq_true fun hinsensitive => ?_
    have hfind := List.mem_cons_of_mem .containing hoperator
    obtain ⟨found, hfound, htest⟩ := exists_test_of_holds hfind h
    obtain ⟨other, hother, htrue⟩ := exists_test_of_holds hfind hinsensitive
    obtain rfl := Option.some.inj (hfield.symm.trans hfound)
    obtain rfl := Option.some.inj (hfield.symm.trans hother)
    exact (test_true_iff_of_false hoperator htest).mp htrue hcuts
  · rintro hoperator h ⟨value, hfield, hcuts⟩
    obtain ⟨found, hfound, htest⟩ := exists_test_of_holds hoperator h
    obtain rfl := Option.some.inj (hfield.symm.trans hfound)
    exact sigma_of_cutsSigma hoperator htest hcuts

end Predicate

/-! ## Greek names -/

/-- A search for a name. -/
def naming (operator : Operator) (part : String) : Predicate where
  property := ⟨["name"], .string⟩
  field := "name"
  operator := operator
  ignoreCase := false
  values := [.string part]

/-- A document with a name. -/
def named (name : String) : Document := .object [("name", .string name)]

theorem field?_named (name : String) : (named name).field? "name" = some (.string name) := by
  have hsegments : Text.segments "name" = ["name"] := by decide
  rw [Document.field?, hsegments]
  rfl

theorem holds_naming (operator : Operator) (part name : String) (ignoreCase : Bool) :
    ({ naming operator part with ignoreCase } : Predicate).holds (named name)
      = Predicate.test operator ignoreCase (.string name) (.string part) .null :=
  Predicate.holds_of_field { naming operator part with ignoreCase } (field?_named name)

/-- `ΑΣ` stands in `ΑΣ ΑΣΑ` twice, and at the first place it is a word of its own. -/
theorem Predicate.ignoreCase_widens_names :
    (naming .containing "ΑΣ").sensitive.holds (named "ΑΣ ΑΣΑ") = true ∧
      ¬ (naming .containing "ΑΣ").CutsSigma (named "ΑΣ ΑΣΑ") ∧
      (naming .containing "ΑΣ").insensitive.holds (named "ΑΣ ΑΣΑ") = true := by
  obtain ⟨-, -, hwidens, -⟩ := (naming .containing "ΑΣ").ignoreCase_widens (named "ΑΣ ΑΣΑ")
  have hholds : (naming .containing "ΑΣ").sensitive.holds (named "ΑΣ ΑΣΑ") = true :=
    (holds_naming .containing "ΑΣ" "ΑΣ ΑΣΑ" false).trans (by decide +kernel)
  have hkept : ¬ (naming .containing "ΑΣ").CutsSigma (named "ΑΣ ΑΣΑ") := by
    rintro ⟨value, hfield, text, part, htext, hpart, hcut⟩
    cases (field?_named _).symm.trans hfield
    cases htext
    cases hpart
    have hword : Text.startsCased " ΑΣΑ".toList = false := by decide +kernel
    rcases hcut [] " ΑΣΑ".toList trivial (by decide) with ⟨-, -, -, -, -, h⟩ | ⟨-, -, -, -, h, -⟩
    · rw [hword] at h
      cases h
    · cases h
  exact ⟨hholds, hkept, hwidens (by decide) hholds hkept⟩

/-- `ΑΣΑ` starts with `ΑΣ` and `ΑΣ` ends with `Σ`, but not without regard to case: in lower case they are
`ασα` and `ας`, and the parts alone are `ας` and `σ`. -/
theorem Predicate.sigma_lost_names :
    (naming .startsWith "ΑΣ").sensitive.holds (named "ΑΣΑ") = true ∧
      (naming .startsWith "ΑΣ").insensitive.holds (named "ΑΣΑ") = false ∧
      (naming .containing "ΑΣ").sensitive.holds (named "ΑΣΑ") = true ∧
      (naming .containing "ΑΣ").insensitive.holds (named "ΑΣΑ") = false ∧
      (naming .notContaining "ΑΣ").insensitive.holds (named "ΑΣΑ") = true ∧
      (naming .notContaining "ΑΣ").sensitive.holds (named "ΑΣΑ") = false ∧
      (naming .endsWith "Σ").sensitive.holds (named "ΑΣ") = true ∧
      (naming .endsWith "Σ").insensitive.holds (named "ΑΣ") = false := by
  refine ⟨?_, ?_, ?_, ?_, ?_, ?_, ?_, ?_⟩
  all_goals
    refine (holds_naming _ _ _ _).trans ?_
    decide +kernel

end DerivedQuery
