import DerivedQuery.Proofs.Method.Legible
import DerivedQuery.Proofs.Method.Occurrence

/-!
# Segments between connectors

The criteria of a name are its segments, with `And` or `Or` between two of them. A segment may start with
one of these words, or have it within a longer one (`IsSegment`), for the scan only cuts at a word that
stands behind something else and ends where a new word starts.

So segments that are joined are found again, whatever connectors stand between them (`cut_joinedBy`). Which
properties they refer to is not asked before that: a name with both connectors is refused for it, and any
other name gives what its segments give one by one (`parse_joinedBy`).
-/

namespace DerivedQuery.Method

variable {segments : List (List Char × Connector)} {last segment text : List Char}

/-! ## Segments -/

/-- A text that starts with an uppercase letter, in which no connector stands as a word but at the
start. -/
structure IsSegment (segment : List Char) : Prop where
  ne_nil : segment ≠ []
  starts : startsWord segment
  unjoined : ∀ word ∈ connectors, ∀ before rest, OccursAsWord word.1 segment before rest → before = []

theorem isSegment_iff : IsSegment segment ↔ segment ≠ [] ∧ startsWord segment ∧
    ∀ word ∈ connectors, splitFirst? word.1 segment.tail = none := by
  have hunjoined : segment ≠ [] → ∀ word ∈ connectors,
      ((∀ before rest, OccursAsWord word.1 segment before rest → before = []) ↔
        splitFirst? word.1 segment.tail = none) := by
    intro hne word hword
    obtain ⟨c, tail, rfl⟩ := List.exists_cons_of_ne_nil hne
    rw [splitFirst?_eq_none_iff (isVocabulary_connectors.ne_nil hword), List.tail_cons]
    constructor
    · rintro h ⟨before, rest, hplace⟩
      exact List.cons_ne_nil c before (h _ rest (occursAsWord_cons_iff.mpr (.inr ⟨before, rfl, hplace⟩)))
    · intro h before rest hplace
      rcases occursAsWord_cons_iff.mp hplace with ⟨hnil, -⟩ | ⟨inner, -, hinner⟩
      · exact hnil
      · exact absurd ⟨inner, rest, hinner⟩ h
  constructor
  · rintro ⟨hne, hstarts, h⟩
    exact ⟨hne, hstarts, fun word hword => (hunjoined hne word hword).mp (h word hword)⟩
  · rintro ⟨hne, hstarts, h⟩
    exact ⟨hne, hstarts, fun word hword => (hunjoined hne word hword).mpr (h word hword)⟩

instance : DecidablePred IsSegment := fun _ => decidable_of_iff _ isSegment_iff.symm

/-- A later capitalised word of a text stands in it as a word, behind something else. -/
theorem occursAsWord_of_mem_humps {hump : List Char} (h : hump ∈ (humps text).tail) :
    ∃ before rest, before ≠ [] ∧ OccursAsWord hump text before rest := by
  cases hhumps : humps text with
  | nil =>
    rw [hhumps] at h
    cases h
  | cons first later =>
    rw [hhumps, List.tail_cons] at h
    obtain ⟨front, back, rfl⟩ := List.append_of_mem h
    have htext : text = first ++ front.flatten ++ (hump ++ back.flatten) := by
      have hflatten : (humps text).flatten = text := List.flatten_splitBy _ text
      rw [hhumps, List.flatten_cons, List.flatten_append, List.flatten_cons, ← List.append_assoc]
        at hflatten
      exact hflatten.symm
    have hfirst : first ≠ [] := List.ne_nil_of_mem_splitBy (l := text) (hhumps ▸ List.mem_cons_self)
    refine ⟨first ++ front.flatten, back.flatten, List.append_ne_nil_of_left_ne_nil hfirst _, htext, ?_⟩
    -- The capitalised word behind it is what ends it.
    cases back with
    | nil => rfl
    | cons next others =>
      have hpair : [hump, next] <:+: humps text := by
        rw [hhumps]
        exact ⟨first :: front, others, by simp⟩
      have hchain := List.isChain_getLast_head_splitBy (fun _ c => !Text.isUppercase c) text
      have hborder := List.IsChain.infix hchain hpair
      obtain ⟨-, hne, hupper⟩ := List.isChain_pair.mp hborder
      obtain ⟨c, tail, rfl⟩ := List.exists_cons_of_ne_nil hne
      rw [List.head_cons, Bool.not_eq_false'] at hupper
      exact hupper

theorem IsSegment.isPiece (h : IsSegment segment) : IsPiece connectors segment where
  ne_nil := h.ne_nil
  starts := h.starts
  uncut word hword hmem := by
    obtain ⟨before, rest, hbefore, hplace⟩ := occursAsWord_of_mem_humps hmem
    exact hbefore (h.unjoined word hword before rest hplace)

/-! ## Joined segments -/

/-- Segments, each with a connector behind it, and the last one. -/
def joinedBy (segments : List (List Char × Connector)) (last : List Char) : List Char :=
  segments.flatMap (fun segment => segment.1 ++ segment.2.word) ++ last

theorem joinedBy_eq_joined (segments : List (List Char × Connector)) (last : List Char) :
    joinedBy segments last
      = joined (segments.map fun segment => (segment.1, (segment.2.word, segment.2))) last := by
  rw [joined, List.flatMap_map, joinedBy]

theorem startsWord_joinedBy (hsegments : ∀ segment ∈ segments, IsSegment segment.1)
    (hlast : IsSegment last) : startsWord (joinedBy segments last) := by
  rw [joinedBy_eq_joined]
  refine startsWord_joined isVocabulary_connectors ?_ hlast.starts
  intro piece hpiece
  obtain ⟨segment, hmem, rfl⟩ := List.mem_map.mp hpiece
  exact ⟨(hsegments segment hmem).starts, mem_connectors segment.2⟩

theorem joinedBy_ne_nil (hlast : IsSegment last) : joinedBy segments last ≠ [] :=
  List.append_ne_nil_of_right_ne_nil _ hlast.ne_nil

/-- **Joined segments are found again, in their order.** -/
theorem cut_joinedBy (hsegments : ∀ segment ∈ segments, IsSegment segment.1) (hlast : IsSegment last) :
    cut connectors (joinedBy segments last) = (segments, last) := by
  have hpieces : ∀ piece ∈ segments.map fun segment => (segment.1, (segment.2.word, segment.2)),
      IsPiece connectors piece.1 ∧ piece.2 ∈ connectors := by
    intro piece hpiece
    obtain ⟨segment, hmem, rfl⟩ := List.mem_map.mp hpiece
    exact ⟨(hsegments segment hmem).isPiece, mem_connectors segment.2⟩
  rw [joinedBy_eq_joined, cut_joined isVocabulary_connectors hpieces (.inr hlast.isPiece), List.map_map]
  exact congrArg (·, last) (List.map_id _)

/-! ## Names of joined segments -/

variable {m : EntityMetadata} {method : String}

/-- A criterion that cannot be read is no question of connectors. -/
theorem parseCriterion_ne_mixedConnector {other : String} {allIgnoreCase : Bool} :
    parseCriterion m method allIgnoreCase text ≠ .error (.mixedConnector other) := by
  unfold parseCriterion
  dsimp only
  split
  · nofun
  · split
    · nofun
    · nofun

/-- Criteria of joined segments are what the segments give, if they have one connector. -/
theorem parseCriteria_joinedBy (hsegments : ∀ segment ∈ segments, IsSegment segment.1)
    (hlast : IsSegment last)
    (hends : ∀ ending ∈ allIgnoreCaseEndings, ¬ ending <:+ joinedBy segments last) :
    parseCriteria m method (joinedBy segments last) =
      match theConnector? (segments.map (·.2)) with
      | none => .error (.mixedConnector method)
      | some connector => (do
        let criteria ← (segments.map (·.1) ++ [last]).mapM (parseCriterion m method false)
        .ok (connector, criteria)) := by
  have hcut := cut_joinedBy hsegments hlast
  cases hused : theConnector? (segments.map (·.2)) with
  | none => simp only [parseCriteria, dropEnding_of_not_suffix hends, hcut, hused]
  | some connector => simp only [parseCriteria, dropEnding_of_not_suffix hends, hcut, hused]

/-- A name for criteria alone is parsed to what stands behind `By`. -/
theorem parse_findBy (hne : text ≠ []) (hstarts : startsWord text)
    (horder : ¬ HasWord "OrderBy".toList text) (hmethod : method.toList = "findBy".toList ++ text) :
    parse m method = (do
      let read ← parseCriteria m method text
      .ok { method, action := .find, subject := {}, connector := read.1, criteria := read.2,
            order := [] }) := by
  have hverb : ("find".toList, Action.find) ∈ verbs := by decide
  have hsplit : splitVerb? method.toList = some (.find, "By".toList ++ text) := by
    have hfindBy : "findBy".toList = "find".toList ++ "By".toList := by decide
    rw [hmethod, hfindBy, List.append_assoc]
    exact splitVerb?_append hverb rfl
  obtain ⟨c, rest, rfl⟩ := List.exists_cons_of_ne_nil hne
  rw [parse_eq, hsplit]
  dsimp only
  rw [clauses_by hstarts horder]
  rfl

/-- A name of joined segments is read by its connectors and its segments alone. -/
theorem parse_joinedBy_eq (hsegments : ∀ segment ∈ segments, IsSegment segment.1)
    (hlast : IsSegment last)
    (hends : ∀ ending ∈ allIgnoreCaseEndings, ¬ ending <:+ joinedBy segments last)
    (horder : ¬ HasWord "OrderBy".toList (joinedBy segments last))
    (hmethod : method.toList = "findBy".toList ++ joinedBy segments last) :
    parse m method =
      match theConnector? (segments.map (·.2)) with
      | none => .error (.mixedConnector method)
      | some connector => (do
        let criteria ← (segments.map (·.1) ++ [last]).mapM (parseCriterion m method false)
        .ok { method, action := .find, subject := {}, connector, criteria, order := [] }) := by
  have hstarts := startsWord_joinedBy hsegments hlast
  rw [parse_findBy (joinedBy_ne_nil hlast) hstarts horder hmethod,
    parseCriteria_joinedBy hsegments hlast hends]
  cases theConnector? (segments.map (·.2)) with
  | none => rfl
  | some connector =>
    cases (segments.map (·.1) ++ [last]).mapM (parseCriterion m method false) with
    | error error => rfl
    | ok criteria => rfl

/-- **A name of joined segments is read segment by segment.** Whatever the properties are, its criteria
are cut into just these segments, and it is refused for its connectors if and only if both are there. With
one connector it stands for what the segments stand for, each by itself, or is refused for the first one
that stands for nothing. -/
theorem parse_joinedBy (m : EntityMetadata) (hne : segments ≠ [])
    (hsegments : ∀ segment ∈ segments, IsSegment segment.1) (hlast : IsSegment last)
    (hends : ∀ ending ∈ allIgnoreCaseEndings, ¬ ending <:+ joinedBy segments last)
    (horder : ¬ HasWord "OrderBy".toList (joinedBy segments last)) :
    let text := joinedBy segments last
    let method := String.ofList ("findBy".toList ++ text)
    let parts := segments.map (·.1) ++ [last]
    let used := segments.map (·.2)
    clauses ("By".toList ++ text) = ([], some text, none) ∧
    cut connectors (dropEnding allIgnoreCaseEndings text).1 = (segments, last) ∧
    (parse m method = .error (.mixedConnector method) ↔ .and ∈ used ∧ .or ∈ used) ∧
    ∀ connector, (∀ other ∈ used, other = connector) →
      (∃ criteria,
        parse m method = .ok
          { method, action := .find, subject := {}, connector, criteria, order := [] } ∧
        List.Forall₂ (fun part criterion => parseCriterion m method false part = .ok criterion)
          parts criteria) ∨
      ∃ passed part rest error, parts = passed ++ part :: rest ∧
        (∀ earlier ∈ passed, ∃ criterion, parseCriterion m method false earlier = .ok criterion) ∧
        parseCriterion m method false part = .error error ∧ parse m method = .error error := by
  intro text method parts used
  have hparse : parse m method = _ :=
    parse_joinedBy_eq hsegments hlast hends horder String.toList_ofList
  refine ⟨clauses_by (startsWord_joinedBy hsegments hlast) horder, ?_, ?_, fun connector hall => ?_⟩
  · rw [dropEnding_of_not_suffix hends]
    exact cut_joinedBy hsegments hlast
  · rw [← theConnector?_eq_none_iff, hparse]
    cases hused : theConnector? used with
    | none => exact iff_of_true rfl rfl
    | some connector =>
      refine iff_of_false ?_ (Option.some_ne_none connector)
      rcases mapM_eq_ok_or_error (parseCriterion m method false) parts with
        ⟨criteria, hrun, -⟩ | ⟨-, part, -, error, -, -, hpart, hrun⟩
      · dsimp only
        rw [hrun]
        nofun
      · dsimp only
        rw [hrun]
        rintro ⟨⟩
        exact parseCriterion_ne_mixedConnector hpart
  · have hused : theConnector? used = some connector :=
      theConnector?_of_all (List.map_eq_nil_iff.not.mpr hne) hall
    rw [hused] at hparse
    dsimp only at hparse
    rcases mapM_eq_ok_or_error (parseCriterion m method false) parts with
      ⟨criteria, hrun, hparts⟩ | ⟨passed, part, rest, error, hsplit, hpassed, hpart, hrun⟩
    · rw [hrun] at hparse
      exact .inl ⟨criteria, hparse, hparts⟩
    · rw [hrun] at hparse
      exact .inr ⟨passed, part, rest, error, hsplit, hpassed, hpart, hparse⟩

/-- The words are found in no longer word, whether it is at the start of a segment or not. -/
theorem parse_joinedBy_devices :
    let m : EntityMetadata := { (default : EntityMetadata) with
      typeName := "Device"
      properties := PropertyTable.build [("android", .string), ("name", .string), ("orderCount", .int)] }
    let segments := [("Android".toList, Connector.and), ("OrderCount".toList, .and)]
    cut connectors (dropEnding allIgnoreCaseEndings "AndroidAndOrderCountAndName".toList).1
      = (segments, "Name".toList) ∧
    ∃ criteria, parse m "findByAndroidAndOrderCountAndName" = .ok
        ⟨"findByAndroidAndOrderCountAndName", .find, {}, .and, criteria, []⟩ ∧
      List.Forall₂ (fun part criterion =>
          parseCriterion m "findByAndroidAndOrderCountAndName" false part = .ok criterion)
        ["Android".toList, "OrderCount".toList, "Name".toList] criteria := by
  intro m segments
  have hsegments : ∀ segment ∈ segments, IsSegment segment.1 := by decide +kernel
  have hlast : IsSegment "Name".toList := by decide +kernel
  have htext : joinedBy segments "Name".toList = "AndroidAndOrderCountAndName".toList := by
    decide +kernel
  have hends : ∀ ending ∈ allIgnoreCaseEndings, ¬ ending <:+ joinedBy segments "Name".toList := by
    decide +kernel
  have horder : ¬ HasWord "OrderBy".toList (joinedBy segments "Name".toList) :=
    (splitFirst?_eq_none_iff (by decide)).mp (by decide +kernel)
  obtain ⟨-, hcut, -, hone⟩ :=
    parse_joinedBy m (List.cons_ne_nil _ _) hsegments hlast hends horder
  have hmethod : String.ofList ("findBy".toList ++ joinedBy segments "Name".toList)
      = "findByAndroidAndOrderCountAndName" := by decide +kernel
  rw [htext] at hcut
  rw [hmethod] at hone
  refine ⟨hcut, ?_⟩
  rcases hone .and (by decide) with hread | ⟨-, -, -, error, -, -, -, hfailed⟩
  · exact hread
  · have hparse : parse m "findByAndroidAndOrderCountAndName" = .ok
        ⟨"findByAndroidAndOrderCountAndName", .find, {}, .and,
          [⟨⟨["android"], .string⟩, .equal, false⟩, ⟨⟨["orderCount"], .int⟩, .equal, false⟩,
            ⟨⟨["name"], .string⟩, .equal, false⟩], []⟩ := by with_unfolding_all rfl
    cases hparse.symm.trans hfailed

end DerivedQuery.Method
