import DerivedQuery.Proofs.Method.Occurrence
import DerivedQuery.Proofs.Plan.Binding

/-!
# Ignoring case everywhere

`AllIgnoreCase` behind the criteria of a name makes each of them ignore case whose property is textual.
Nothing else in the name is read in another way, since no word that a scan looks for reaches into the
ending (`Method.apart_allIgnoreCase`, `Method.parse_append`).

An operator may need the case of a text, though. The parser does not look at it, and
`Capability.validate` refuses what the parser has made of it
(`Capability.validate_ignoringCaseOfText`). So a name that passes without the ending passes with it only
if no criterion compares a text by such an operator (`Method.parse_validate_allIgnoreCase`).
-/

namespace DerivedQuery

/-! ## Criteria -/

namespace Criterion

variable (criterion : Criterion)

/-- The property is textual and the operator can ignore case. -/
def canIgnoreCase : Bool := criterion.property.type.isTextual && criterion.operator.supportsIgnoreCase

/-- The property is textual, but the operator cannot ignore case. -/
def needsCase : Bool := criterion.property.type.isTextual && !criterion.operator.supportsIgnoreCase

/-- The criterion ignores case as well if it can. -/
def ignoringCase : Criterion :=
  { criterion with ignoreCase := criterion.ignoreCase || criterion.canIgnoreCase }

/-- The criterion ignores case as well if it is about a text. -/
def ignoringCaseOfText : Criterion :=
  { criterion with ignoreCase := criterion.ignoreCase || criterion.property.type.isTextual }

variable {criterion}

theorem ignoringCaseOfText_eq (h : criterion.needsCase = false) :
    criterion.ignoringCaseOfText = criterion.ignoringCase := by
  unfold needsCase at h
  unfold ignoringCaseOfText ignoringCase canIgnoreCase
  cases htextual : criterion.property.type.isTextual with
  | false => rfl
  | true =>
    rw [htextual, Bool.true_and, Bool.not_eq_false'] at h
    rw [h, Bool.and_true]

end Criterion

namespace Capability

variable {m : EntityMetadata} {criterion : Criterion}

/-- A criterion that passes still does when it ignores the case of a text, unless its operator needs
it. -/
theorem checkCriterion_ignoringCaseOfText (h : checkCriterion m criterion = .ok ()) :
    checkCriterion m criterion.ignoringCaseOfText =
      if criterion.needsCase then
        .error (.unsupportedQuery (.ignoreCaseOnOperator criterion.operator criterion.property.dotted))
      else .ok () := by
  obtain ⟨hdeclared, hcase⟩ := checkCriterion_eq_ok_iff.mp h
  cases hneeds : criterion.needsCase with
  | false =>
    refine checkCriterion_eq_ok_iff.mpr ⟨hdeclared, ?_⟩
    rw [Criterion.ignoringCaseOfText_eq hneeds]
    intro hignore
    rcases Bool.or_eq_true_iff.mp hignore with hignore | hcan
    · exact hcase hignore
    · exact Bool.and_eq_true_iff.mp hcan
  | true =>
    obtain ⟨htextual, hoperator⟩ := Bool.and_eq_true_iff.mp hneeds
    rw [Bool.not_eq_true'] at hoperator
    have hnone : (m.properties.resolve? criterion.property.dotted).isNone = false := by
      rw [← Option.not_isSome, hdeclared, Bool.not_true]
    unfold checkCriterion Criterion.ignoringCaseOfText
    dsimp only
    rw [hnone, htextual, hoperator, Bool.or_true]
    rfl

/-- **An operation that passes still does when it ignores the case of texts, unless an operator needs
it.** The first such operator is reported. -/
theorem validate_ignoringCaseOfText {operation : Operation} {sort : Sorting}
    {order : Option OrderKey} (method : String) (h : validate m operation sort = .ok order) :
    validate m { operation with
        method, criteria := operation.criteria.map Criterion.ignoringCaseOfText } sort =
      match operation.criteria.find? Criterion.needsCase with
      | none => .ok order
      | some criterion => .error (.unsupportedQuery
          (.ignoreCaseOnOperator criterion.operator criterion.property.dotted)) := by
  obtain ⟨hlimit, hchecked, hsort⟩ := validate_eq_ok_iff.mp h
  have hall := forM_map_eq_find? fun criterion hmem =>
    checkCriterion_ignoringCaseOfText (hchecked criterion hmem)
  rw [validate, checkLimit]
  dsimp only
  rw [hlimit, ok_bind, hall]
  cases operation.criteria.find? Criterion.needsCase with
  | none => exact hsort
  | some criterion => rfl

end Capability

namespace Method

variable {word marker text ending before rest : List Char}

/-! ## Subjects with an ending -/

theorem Apart.hasInfix_append (h : Apart word ending) :
    Text.hasInfix word (text ++ ending) = Text.hasInfix word text := by
  have hplaces : ∀ text, word <:+: text ↔ ∃ before rest, Occurs word text before rest := by
    intro text
    simp only [List.IsInfix, Occurs, List.append_assoc, eq_comm]
  rw [Bool.eq_iff_iff, Text.hasInfix_iff, Text.hasInfix_iff, hplaces, hplaces]
  simp only [h.occurs_append_iff]
  constructor
  · rintro ⟨before, -, tail, -, hplace⟩
    exact ⟨before, tail, hplace⟩
  · rintro ⟨before, tail, hplace⟩
    exact ⟨before, _, tail, rfl, hplace⟩

/-- A number ends where the ending starts. -/
theorem takeWhile_dropWhile_append (after : List Char)
    (hletter : ∀ c ∈ ending.head?, c.isDigit = false) :
    (after ++ ending).takeWhile Char.isDigit = after.takeWhile Char.isDigit ∧
      (after ++ ending).dropWhile Char.isDigit = after.dropWhile Char.isDigit ++ ending := by
  induction after with
  | nil =>
    cases ending with
    | nil => exact ⟨rfl, rfl⟩
    | cons c ending =>
      have hc : ¬ c.isDigit := Bool.eq_false_iff.mp (hletter c rfl)
      exact ⟨List.takeWhile_cons_of_neg hc, List.dropWhile_cons_of_neg hc⟩
  | cons d after ih =>
    rw [List.cons_append, List.takeWhile_cons, List.takeWhile_cons, List.dropWhile_cons,
      List.dropWhile_cons]
    cases d.isDigit with
    | false => exact ⟨rfl, rfl⟩
    | true => exact ih.imp (congrArg _) id

theorem limit?_append (marker : String) (h : Apart marker.toList ending)
    (hmarker : marker.toList ≠ []) (hstarts : startsWord ending)
    (hletter : ∀ c ∈ ending.head?, c.isDigit = false) :
    limit? marker (text ++ ending) = limit? marker text := by
  unfold limit?
  rw [h.behindMarker?_append hmarker]
  cases behindMarker? marker.toList text with
  | none => rfl
  | some after =>
    obtain ⟨htake, hdrop⟩ := takeWhile_dropWhile_append after hletter
    rw [Option.map_some]
    dsimp only
    rw [htake, hdrop, startsWord_append_ending hstarts]

/-- What the scans of a name look for. -/
def lookedFor : List (List Char) :=
  ["OrderBy".toList, "By".toList, "Distinct".toList, "First".toList, "Top".toList]

theorem head?_allIgnoreCase : ∀ ending ∈ allIgnoreCaseEndings, ending.head? = some 'A' := by decide

theorem apart_allIgnoreCase :
    ∀ ending ∈ allIgnoreCaseEndings, ∀ word ∈ lookedFor, Apart word ending := by
  intro ending hending word hword
  refine ⟨?_, fun c hc => ?_⟩
  · have habsent : ∀ ending ∈ allIgnoreCaseEndings, ∀ word ∈ lookedFor, ¬ word <:+: ending := by
      decide +kernel
    exact habsent ending hending word hword
  · have hletter : ∀ word ∈ lookedFor, 'A' ∉ word := by decide
    rw [head?_allIgnoreCase ending hending, Option.mem_some_iff] at hc
    rw [← hc]
    exact hletter word hword

theorem startsWord_allIgnoreCase : ∀ ending ∈ allIgnoreCaseEndings, startsWord ending := by decide

theorem parseSubject_append (hending : ending ∈ allIgnoreCaseEndings) :
    parseSubject (text ++ ending) = parseSubject text := by
  have hletter : ∀ c ∈ ending.head?, c.isDigit = false := by
    intro c hc
    rw [head?_allIgnoreCase ending hending, Option.mem_some_iff] at hc
    rw [← hc]
    decide
  have hapart := apart_allIgnoreCase ending hending
  have hstarts := startsWord_allIgnoreCase ending hending
  unfold parseSubject
  rw [(hapart "Distinct".toList (by decide)).hasInfix_append,
    limit?_append "First" (hapart _ (by decide)) (by decide) hstarts hletter,
    limit?_append "Top" (hapart _ (by decide)) (by decide) hstarts hletter]

/-! ## Criteria with an ending -/

variable {m : EntityMetadata} {method other : String}

theorem parseCriterion_all {criterion : Criterion}
    (h : parseCriterion m method false text = .ok criterion) :
    parseCriterion m other true text = .ok criterion.ignoringCaseOfText := by
  replace h : parseCriterion m other false text = .ok criterion := parseCriterion_of_ok h
  unfold parseCriterion at h ⊢
  dsimp only at h ⊢
  obtain ⟨hbody, h⟩ := ite_error_eq_ok_iff.mp h
  rw [if_neg hbody]
  cases hfound : propertyAndOperator? m.properties (dropEnding ignoreCaseEndings text).1 with
  | none =>
    rw [hfound] at h
    cases h
  | some found =>
    rw [hfound] at h
    cases h
    simp only [Criterion.ignoringCaseOfText, Bool.false_and, Bool.or_false, Bool.true_and]

/-- Criteria with the ending are the same, but ignore case where the property is textual. -/
theorem parseCriteria_append {connector : Connector} {criteria : List Criterion}
    (hending : ending ∈ allIgnoreCaseEndings)
    (hends : ∀ ending ∈ allIgnoreCaseEndings, ¬ ending <:+ text)
    (h : parseCriteria m method text = .ok (connector, criteria)) :
    parseCriteria m other (text ++ ending)
      = .ok (connector, criteria.map Criterion.ignoringCaseOfText) := by
  have hdrop : dropEnding allIgnoreCaseEndings (text ++ ending) = (text, true) := by
    refine dropEnding_append hending ?_
    exact (by decide : ∀ ending ∈ allIgnoreCaseEndings, ∀ other ∈ allIgnoreCaseEndings,
      other <:+ ending ∨ ending <:+ other → other = ending) ending hending
  unfold parseCriteria at h ⊢
  rw [dropEnding_of_not_suffix hends] at h
  rw [hdrop]
  dsimp only at h ⊢
  cases hconnector : theConnector? ((cut connectors text).1.map (·.2)) with
  | none =>
    rw [hconnector] at h
    cases h
  | some used =>
    rw [hconnector] at h
    obtain ⟨_, hread, ⟨⟩⟩ := bind_eq_ok_iff.mp h
    refine bind_eq_ok_iff.mpr ⟨_, mapM_eq_ok_iff.mpr ?_, rfl⟩
    rw [List.forall₂_map_right_iff]
    exact (mapM_eq_ok_iff.mp hread).imp fun _ _ => parseCriterion_all

/-! ## Names with an ending -/

/-- The ending goes with the criteria, or with the subject if there are none. -/
theorem clauses_append_ending (hending : ending ∈ allIgnoreCaseEndings)
    (horder : ¬ HasWord "OrderBy".toList text) :
    clauses (text ++ ending) =
      match splitFirst? "By".toList text with
      | some (subject, criteria) => (subject, some (criteria ++ ending), none)
      | none => (text ++ ending, none, none) := by
  have hstarts := startsWord_allIgnoreCase ending hending
  have hapart := apart_allIgnoreCase ending hending
  have horder' : ¬ HasWord "OrderBy".toList (text ++ ending) :=
    ((hapart "OrderBy".toList (by decide)).hasWord_append_iff hstarts).not.mpr horder
  rw [clauses_of_lacks horder', cutCriteria,
    (hapart "By".toList (by decide)).splitFirst?_append hstarts (by decide)]
  cases splitFirst? "By".toList text with
  | none => rfl
  | some found => rfl

variable {verb : Word Action} {operation : Operation}

/-- **A name without an order is read as before when the ending is put behind it**, but its criteria
ignore the case of texts. -/
theorem parse_append (hverb : verb ∈ verbs) (hstarts : startsWord text)
    (horder : ¬ HasWord "OrderBy".toList text)
    (hends : ∀ ending ∈ allIgnoreCaseEndings, ¬ ending <:+ text)
    (hending : ending ∈ allIgnoreCaseEndings)
    (h : parse m (String.ofList (verb.1 ++ text)) = .ok operation) :
    parse m (String.ofList (verb.1 ++ (text ++ ending))) = .ok { operation with
      method := String.ofList (verb.1 ++ (text ++ ending))
      criteria := operation.criteria.map Criterion.ignoringCaseOfText } := by
  have hclauses := clauses_of_lacks horder
  have hclauses' := clauses_append_ending hending horder
  have hsplit' : splitVerb? (String.ofList (verb.1 ++ (text ++ ending))).toList
      = some (verb.2, text ++ ending) := by
    rw [String.toList_ofList]
    exact splitVerb?_append hverb (startsWord_append hstarts (startsWord_allIgnoreCase ending hending))
  obtain ⟨_, _, subject, connector, criteria, order, hsplit, hsubject, hcriteria, hread, rfl⟩ :=
    parse_eq_ok_iff.mp h
  rw [String.toList_ofList, splitVerb?_append hverb hstarts] at hsplit
  cases hsplit
  rw [cutCriteria] at hclauses
  refine parse_eq_ok_iff.mpr ⟨verb.2, text ++ ending, subject, connector,
    criteria.map Criterion.ignoringCaseOfText, order, hsplit', ?_⟩
  cases hcut : splitFirst? "By".toList text with
  | none =>
    rw [hcut] at hclauses hclauses'
    rw [hclauses] at hsubject hcriteria hread
    rw [hclauses']
    cases hcriteria
    exact ⟨(parseSubject_append hending).trans hsubject, rfl, hread, rfl⟩
  | some found =>
    obtain ⟨before, text'⟩ := found
    rw [hcut] at hclauses hclauses'
    rw [hclauses] at hsubject hcriteria hread
    rw [hclauses']
    -- What stands behind `By` is the end of the name.
    have hends' : ∀ ending ∈ allIgnoreCaseEndings, ¬ ending <:+ text' := fun other hother hsuffix =>
      hends other hother (hsuffix.trans ⟨_, (splitFirst?_eq_some hcut).symm⟩)
    refine ⟨hsubject, ?_, hread, rfl⟩
    cases text' with
    | nil => cases hcriteria
    | cons c rest => exact parseCriteria_append hending hends' hcriteria

/-- **`AllIgnoreCase` is obeyed just where it can be, or the name is refused.** A name that passes the
parser and the validator passes them with the ending as well, and then its criteria ignore case in
addition wherever property and operator allow it. The exception is a name with a criterion that compares a
text by an operator that needs its case: this is parsed, but refused for the first such criterion. -/
theorem parse_validate_allIgnoreCase {sort : Sorting} {order : Option OrderKey} (hverb : verb ∈ verbs)
    (horder : ¬ HasWord "OrderBy".toList text)
    (hends : ∀ ending ∈ allIgnoreCaseEndings, ¬ ending <:+ text)
    (hending : ending ∈ allIgnoreCaseEndings)
    (hparse : parse m (String.ofList (verb.1 ++ ("By".toList ++ text))) = .ok operation)
    (hvalidate : Capability.validate m operation sort = .ok order) :
    let method := String.ofList (verb.1 ++ ("By".toList ++ (text ++ ending)))
    ∃ all, parse m method = .ok all ∧
      all = { operation with
        method, criteria := operation.criteria.map Criterion.ignoringCaseOfText } ∧
      match operation.criteria.find? Criterion.needsCase with
      | none => Capability.validate m all sort = .ok order ∧
          all.criteria = operation.criteria.map Criterion.ignoringCase
      | some criterion => Capability.validate m all sort = .error (.unsupportedQuery
          (.ignoreCaseOnOperator criterion.operator criterion.property.dotted)) := by
  intro method
  have hends' : ∀ ending ∈ allIgnoreCaseEndings, ¬ ending <:+ "By".toList ++ text := by
    intro other hother hsuffix
    have hhead := head?_allIgnoreCase other hother
    change other <:+ 'B' :: 'y' :: text at hsuffix
    rw [List.suffix_cons_iff, List.suffix_cons_iff] at hsuffix
    rcases hsuffix with rfl | rfl | hsuffix
    · exact absurd (Option.some.inj hhead) (by decide)
    · exact absurd (Option.some.inj hhead) (by decide)
    · exact hends other hother hsuffix
  have hall := parse_append hverb rfl (lacks_orderBy_by horder) hends' hending hparse
  rw [List.append_assoc] at hall
  refine ⟨_, hall, rfl, ?_⟩
  have hchecked := Capability.validate_ignoringCaseOfText method hvalidate
  cases hneeds : operation.criteria.find? Criterion.needsCase with
  | none =>
    rw [hneeds] at hchecked
    refine ⟨hchecked, List.map_congr_left fun criterion hmem => ?_⟩
    exact Criterion.ignoringCaseOfText_eq (by simpa using List.find?_eq_none.mp hneeds criterion hmem)
  | some criterion =>
    rw [hneeds] at hchecked
    exact hchecked

/-- Projects have a name and count their stars. -/
def Project.metadata : EntityMetadata where
  typeName := "Project"
  collection := "projects"
  idProperty := ⟨["id"], .string⟩
  partitionKey := none
  properties := PropertyTable.build [("id", .string), ("name", .string), ("starCount", .int)]

theorem parse_validate_allIgnoreCase_projects :
    ∃ all, parse Project.metadata "findByNameNotAndStarCountAllIgnoreCase" = .ok all ∧
      Capability.validate Project.metadata all [] = .ok none ∧
      all.criteria = [⟨⟨["name"], .string⟩, .notEqual, true⟩, ⟨⟨["starCount"], .int⟩, .equal, false⟩] := by
  have hverb : ("find".toList, Action.find) ∈ verbs := by decide
  let plain : Operation := ⟨"findByNameNotAndStarCount", .find, {}, .and,
    [⟨⟨["name"], .string⟩, .notEqual, false⟩, ⟨⟨["starCount"], .int⟩, .equal, false⟩], []⟩
  have hparse : parse Project.metadata (String.ofList ("find".toList ++ ("By".toList ++
      "NameNotAndStarCount".toList))) = .ok plain := by with_unfolding_all rfl
  have hplain : Capability.validate Project.metadata plain [] = .ok none := rfl
  have horder : ¬ HasWord "OrderBy".toList "NameNotAndStarCount".toList :=
    (splitFirst?_eq_none_iff (by decide)).mp (by decide +kernel)
  have hends : ∀ ending ∈ allIgnoreCaseEndings, ¬ ending <:+ "NameNotAndStarCount".toList := by
    decide +kernel
  have hending : "AllIgnoreCase".toList ∈ allIgnoreCaseEndings := by decide
  obtain ⟨all, hall, rfl, hvalidate⟩ :=
    parse_validate_allIgnoreCase hverb horder hends hending hparse hplain
  exact ⟨_, hall, hvalidate.1, rfl⟩

/-- The order of texts needs their case: a name that passes is refused with the ending. -/
theorem allIgnoreCase_refused_greaterThan :
    (∃ operation, parse Project.metadata "findByNameGreaterThan" = .ok operation ∧
      Capability.validate Project.metadata operation [] = .ok none) ∧
    (∀ ending ∈ ignoreCaseEndings ++ allIgnoreCaseEndings, ¬ ending <:+ "NameGreaterThan".toList) ∧
    ∃ all, parse Project.metadata "findByNameGreaterThanAllIgnoreCase" = .ok all ∧
      Capability.validate Project.metadata all [] =
        .error (.unsupportedQuery (.ignoreCaseOnOperator .greaterThan "name")) := by
  have hplain : parse Project.metadata "findByNameGreaterThan" = .ok ⟨"findByNameGreaterThan", .find, {},
      .and, [⟨⟨["name"], .string⟩, .greaterThan, false⟩], []⟩ := by with_unfolding_all rfl
  have hall : parse Project.metadata "findByNameGreaterThanAllIgnoreCase" = .ok
      ⟨"findByNameGreaterThanAllIgnoreCase", .find, {}, .and,
        [⟨⟨["name"], .string⟩, .greaterThan, true⟩], []⟩ := by with_unfolding_all rfl
  exact ⟨⟨_, hplain, rfl⟩, by decide +kernel, _, hall, rfl⟩

end Method

end DerivedQuery
