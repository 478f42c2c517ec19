import DerivedQuery.Method.Parser
import DerivedQuery.Proofs.Failure
import DerivedQuery.Proofs.Method.Words

/-!
# Names by their clauses

A name is parsed if each of its clauses is: `parse_eq_ok_iff` says so once, and no proof behind it opens
the parser again. The verb decides the action alone, so names that differ in nothing but their verbs stand
for operations that differ in nothing but the action (`parse_verb`).
-/

namespace DerivedQuery.Method

variable {m : EntityMetadata} {method : String}

/-! ## Verbs -/

/-- Where a first word without capitals ends is seen from the text. -/
theorem append_inj_of_startsWord {u v r s : List Char} (hu : ∀ c ∈ u, Text.isUppercase c = false)
    (hv : ∀ c ∈ v, Text.isUppercase c = false) (hr : startsWord r) (hs : startsWord s)
    (h : u ++ r = v ++ s) : u = v ∧ r = s := by
  induction u generalizing v with
  | nil =>
    cases v with
    | nil => exact ⟨rfl, h⟩
    | cons c v =>
      rw [List.nil_append] at h
      rw [h] at hr
      exact absurd hr (Bool.eq_false_iff.mp (hv c List.mem_cons_self))
  | cons c u ih =>
    cases v with
    | nil =>
      rw [List.nil_append] at h
      rw [← h] at hs
      exact absurd hs (Bool.eq_false_iff.mp (hu c List.mem_cons_self))
    | cons d v =>
      obtain ⟨rfl, htail⟩ := List.cons_eq_cons.mp h
      obtain ⟨rfl, rfl⟩ := ih (fun x hx => hu x (List.mem_cons_of_mem c hx))
        (fun x hx => hv x (List.mem_cons_of_mem c hx)) htail
      exact ⟨rfl, rfl⟩

theorem isUppercase_of_mem_verbs :
    ∀ verb ∈ verbs, ∀ c ∈ verb.1, Text.isUppercase c = false := by
  have hall : verbs.all (fun verb => verb.1.all fun c => !Text.isUppercase c) = true := by
    decide +kernel
  simpa only [List.all_eq_true, Bool.not_eq_true'] using hall

theorem eq_of_mem_verbs : ∀ verb ∈ verbs, ∀ other ∈ verbs, verb.1 = other.1 → verb = other := by
  decide

theorem splitVerb?_eq_some {text rest : List Char} {action : Action}
    (h : splitVerb? text = some (action, rest)) :
    ∃ verb, (verb, action) ∈ verbs ∧ text = verb ++ rest ∧ startsWord rest := by
  obtain ⟨⟨verb, _⟩, hverb, hsplit⟩ := List.exists_of_findSome?_eq_some h
  obtain ⟨_, hbehind, ⟨⟩⟩ := Option.map_eq_some_iff.mp hsplit
  obtain ⟨htext, hstarts⟩ := behind?_eq_some_iff.mp hbehind
  exact ⟨verb, hverb, htext, hstarts⟩

/-- A verb in front of a word is found. -/
theorem splitVerb?_append {verb : Word Action} {rest : List Char} (hverb : verb ∈ verbs)
    (hstarts : startsWord rest) : splitVerb? (verb.1 ++ rest) = some (verb.2, rest) := by
  refine findSome?_eq_some_of_unique hverb ?_ ?_
  · change (behind? verb.1 (verb.1 ++ rest)).map (verb.2, ·) = some (verb.2, rest)
    rw [behind?_eq_some_iff.mpr ⟨rfl, hstarts⟩, Option.map_some]
  · rintro other hother _ hsplit
    obtain ⟨found, hbehind, rfl⟩ := Option.map_eq_some_iff.mp hsplit
    obtain ⟨htext, hfound⟩ := behind?_eq_some_iff.mp hbehind
    obtain ⟨hword, rfl⟩ := append_inj_of_startsWord (isUppercase_of_mem_verbs verb hverb)
      (isUppercase_of_mem_verbs other hother) hstarts hfound htext
    rw [eq_of_mem_verbs verb hverb other hother hword]

/-! ## Clauses -/

/-- What is cut at `By`, with what is behind `OrderBy`. -/
def cutCriteria (head : List Char) (order : Option (List Char)) :
    List Char × Option (List Char) × Option (List Char) :=
  match splitFirst? "By".toList head with
  | some (subject, criteria) => (subject, some criteria, order)
  | none => (head, none, order)

theorem cutCriteria_eq {head subject : List Char} {criteria order behind : Option (List Char)}
    (h : cutCriteria head behind = (subject, criteria, order)) :
    head = subject ++ criteria.elim [] ("By".toList ++ ·) ∧ behind = order := by
  unfold cutCriteria at h
  split at h
  · next hfirst =>
    cases h
    rw [splitFirst?_eq_some hfirst, List.append_assoc]
    exact ⟨rfl, rfl⟩
  · cases h
    exact ⟨(List.append_nil _).symm, rfl⟩

/-- The clauses make up the text. -/
theorem clauses_eq {text subject : List Char} {criteria order : Option (List Char)}
    (h : clauses text = (subject, criteria, order)) :
    text = subject ++ criteria.elim [] ("By".toList ++ ·) ++ order.elim [] ("OrderBy".toList ++ ·) := by
  unfold clauses at h
  cases hlast : splitLast? "OrderBy".toList text with
  | some found =>
    rw [hlast] at h
    have hcut : cutCriteria found.1 (some found.2) = (subject, criteria, order) := h
    obtain ⟨hsubject, rfl⟩ := cutCriteria_eq hcut
    rw [(splitLast?_eq_some hlast).1, ← hsubject, List.append_assoc]
    rfl
  | none =>
    rw [hlast] at h
    have hcut : cutCriteria text none = (subject, criteria, order) := h
    obtain ⟨hsubject, rfl⟩ := cutCriteria_eq hcut
    rw [← hsubject]
    exact (List.append_nil text).symm

/-- What stands behind `By`. -/
def readCriteria (m : EntityMetadata) (method : String) (hasOrder : Bool) :
    Option (List Char) → Except QueryError (Connector × List Criterion)
  | none => .ok (.and, [])
  | some [] => if hasOrder then .ok (.and, []) else .error (.invalidMethodName method .noCriteria)
  | some text => parseCriteria m method text

/-- What stands behind `OrderBy`. -/
def readOrder (m : EntityMetadata) (method : String) :
    Option (List Char) → Except QueryError Sorting
  | none => .ok []
  | some text => parseOrder m method text

/-- A name is parsed clause by clause. -/
theorem parse_eq (m : EntityMetadata) (method : String) :
    parse m method =
      (match splitVerb? method.toList with
      | none => .error (.invalidMethodName method .noVerb)
      | some (action, text) => do
        let subject ← (parseSubject (clauses text).1).mapError (.invalidMethodName method)
        let read ← readCriteria m method (clauses text).2.2.isSome (clauses text).2.1
        let order ← readOrder m method (clauses text).2.2
        .ok { method, action, subject, connector := read.1, criteria := read.2, order }) := by
  unfold parse
  cases splitVerb? method.toList with
  | none => rfl
  | some split =>
    obtain ⟨action, text⟩ := split
    simp only [ok_bind]
    obtain ⟨subjectText, criteriaText, orderText⟩ := clauses text
    -- The clauses may each be missing, and what stands behind `By` may be empty.
    rcases criteriaText with - | - | ⟨c, rest⟩ <;> cases orderText <;> rfl

/-- **A name is parsed if its clauses are.** -/
theorem parse_eq_ok_iff {operation : Operation} :
    parse m method = .ok operation ↔
      ∃ action text subject connector criteria order,
        splitVerb? method.toList = some (action, text) ∧
        parseSubject (clauses text).1 = .ok subject ∧
        readCriteria m method (clauses text).2.2.isSome (clauses text).2.1
          = .ok (connector, criteria) ∧
        readOrder m method (clauses text).2.2 = .ok order ∧
        operation = { method, action, subject, connector, criteria, order } := by
  rw [parse_eq]
  cases splitVerb? method.toList with
  | none => simp only [reduceCtorEq, false_and, exists_false]
  | some split =>
    obtain ⟨action, text⟩ := split
    simp only [bind_eq_ok_iff, mapError_eq_ok_iff]
    constructor
    · rintro ⟨subject, hsubject, ⟨connector, criteria⟩, hcriteria, order, horder, ⟨⟩⟩
      exact ⟨action, text, subject, connector, criteria, order, rfl, hsubject, hcriteria, horder, rfl⟩
    · rintro ⟨_, _, subject, connector, criteria, order, ⟨⟩, hsubject, hcriteria, horder, rfl⟩
      exact ⟨subject, hsubject, (connector, criteria), hcriteria, order, horder, rfl⟩

theorem method_of_parse {operation : Operation} (h : parse m method = .ok operation) :
    operation.method = method := by
  obtain ⟨_, _, _, _, _, _, -, -, -, -, rfl⟩ := parse_eq_ok_iff.mp h
  rfl

/-! ## Connectors -/

/-- There is no one connector if there are both. -/
theorem theConnector?_eq_none_iff {used : List Connector} :
    theConnector? used = none ↔ .and ∈ used ∧ .or ∈ used := by
  rw [theConnector?, ← List.contains_iff_mem, ← List.contains_iff_mem, ← Bool.and_eq_true]
  cases used.contains .and && used.contains .or with
  | true => exact iff_of_true rfl rfl
  | false =>
    refine iff_of_false ?_ Bool.false_ne_true
    rw [if_neg Bool.false_ne_true]
    split
    · exact Option.some_ne_none _
    · exact Option.some_ne_none _

theorem theConnector?_of_all {used : List Connector} {connector : Connector} (hne : used ≠ [])
    (h : ∀ other ∈ used, other = connector) : theConnector? used = some connector := by
  obtain ⟨first, rest, rfl⟩ := List.exists_cons_of_ne_nil hne
  have hconst : first :: rest = List.replicate (rest.length + 1) connector :=
    List.eq_replicate_iff.mpr ⟨rfl, h⟩
  rw [hconst, List.replicate_succ]
  cases connector with
  | and => simp [theConnector?]
  | or => simp [theConnector?]

/-! ## Names of the same clauses -/

theorem parseCriterion_of_ok {other : String} {allIgnoreCase : Bool} {text : List Char}
    {criterion : Criterion} (h : parseCriterion m method allIgnoreCase text = .ok criterion) :
    parseCriterion m other allIgnoreCase text = .ok criterion := by
  unfold parseCriterion at h ⊢
  dsimp only at h ⊢
  split at h
  · cases h
  · next hbody =>
    rw [if_neg hbody]
    exact h

end DerivedQuery.Method
