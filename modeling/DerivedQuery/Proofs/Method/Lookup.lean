import DerivedQuery.Proofs.Method.Spelling

/-!
# Names that look identifiers up

Documents are looked up by a list of identifiers under a method name that is made of the name of the
identifier and then goes through the whole parser. The name is read back if the identifier is legible as
such (`EntityMetadata.LegibleId`), whatever the other properties are called: no scan finds a word in the
capitalised name, it refers to the identifier, and no text in front of a longer keyword than `In` refers
to a property (`EntityMetadata.LegibleId.parse_lookup`).

The identifier is legible if it is called `id` (`EntityMetadata.LegibleId.of_leaf_id`), and if the
properties are `Legible` (`Method.Legible.legibleId`).
-/

namespace DerivedQuery

/-! ## The identifier of an entity -/

namespace EntityMetadata

/-- The name of the identifier as a lookup has it. -/
def idWord (m : EntityMetadata) : List Char := Text.capitalize m.idProperty.leaf.toList

/-- A lookup takes the name of the identifier for the identifier: no scan finds anything in the
capitalised name, the name can be had back from it, and what it leaves in front of a longer keyword than
`In` refers to no property. -/
structure LegibleId (m : EntityMetadata) : Prop where
  restored : Text.decapitalize m.idWord = m.idProperty.leaf.toList
  ne_nil : m.idWord ≠ []
  starts : Method.startsWord m.idWord
  plain : '_' ∉ m.idWord
  uncut : ∀ word ∈ Method.connectors, word.1 ∉ (Method.humps m.idWord).tail
  orderBy : Method.LacksOrderBy (Method.humps m.idWord)
  unambiguous : ∀ head, ∀ word ∈ ["Is".toList, "Not".toList, "IsNot".toList],
    m.idWord = head ++ word → Method.refer m.properties head = none

end EntityMetadata

namespace Method

/-! ## One criterion -/

section Body

variable {m : EntityMetadata} {body : List Char} {path : PropertyPath} {operator : Operator}

/-- Criteria that are one body are read as what the body stands for. -/
theorem parseCriteria_body (h : IsBody body)
    (hfound : propertyAndOperator? m.properties body = some (path, operator)) (method : String) :
    parseCriteria m method body = .ok (.and, [⟨path, operator, false⟩]) := by
  have hnot := not_suffix_all h false
  have hself := dropEnding_body h false
  rw [ignoreCaseText, if_neg Bool.false_ne_true, List.append_nil] at hnot hself
  have hall : dropEnding allIgnoreCaseEndings body = (body, false) :=
    dropEnding_eq_self fun ending hending =>
      ⟨(by decide : ∀ ending ∈ allIgnoreCaseEndings, startsWord ending) ending hending,
        hnot ending hending⟩
  have hcut : cut connectors body = ([], body) :=
    cut_joined isVocabulary_connectors (List.forall_mem_nil _) (.inr ⟨h.ne_nil, h.starts, h.uncut⟩)
  have hread : parseCriterion m method false body = .ok ⟨path, operator, false⟩ := by
    unfold parseCriterion
    rw [hself]
    dsimp only
    rw [if_neg (List.isEmpty_iff.not.mpr h.ne_nil), hfound]
    rfl
  unfold parseCriteria
  rw [hall]
  dsimp only
  rw [hcut]
  change ([body].mapM _ >>= _) = _
  rw [List.mapM_cons, hread]
  rfl

end Body

/-! ## Lookups -/

/-- What a lookup stands for: the identifier is one of some values. -/
def lookup (m : EntityMetadata) (method : String) : Operation where
  method
  action := .find
  subject := {}
  connector := .and
  criteria := [⟨m.idProperty, .isIn, false⟩]
  order := []

/-- Of the keywords only these end in `In`. -/
theorem keywords_in : ∀ keyword ∈ keywords, "In".toList <:+ keyword.1 →
    keyword.2 = .isIn ∧ keyword.1 = "In".toList ∨
      ∃ word ∈ ["Is".toList, "Not".toList, "IsNot".toList], keyword.1 = word ++ "In".toList := by
  decide +kernel

theorem two_le_length_keywords : ∀ keyword ∈ keywords, 2 ≤ keyword.1.length := by decide

end Method

namespace EntityMetadata.LegibleId

open Method

variable {description : EntityDescription} {m : EntityMetadata}

/-- The capitalised name with `In` behind it is the body of a criterion. -/
theorem isBody (h : m.LegibleId) : IsBody (m.idWord ++ "In".toList) := by
  have hhumps : humps (m.idWord ++ "In".toList) = humps m.idWord ++ ["In".toList] :=
    humps_append m.idWord (by decide)
  refine ⟨List.append_ne_nil_of_left_ne_nil h.ne_nil _, startsWord_append h.starts rfl, ?_, ?_, ?_, ?_⟩
  · intro word hword hmem
    rw [hhumps, List.tail_append_of_ne_nil (humps_eq_nil_iff.not.mpr h.ne_nil)] at hmem
    rcases List.mem_append.mp hmem with hmem | hmem
    · exact h.uncut word hword hmem
    · exact absurd hmem ((by decide : ∀ word ∈ connectors, word.1 ∉ ["In".toList]) word hword)
  · rw [hhumps]
    exact h.orderBy.append (.of_notMem (by decide)) (by decide)
  · rintro ending hending ⟨before, hsplit⟩
    have hcase := (by decide : ∀ ending ∈ ignoreCaseEndings,
      (humps ending).getLast? = some "Case".toList) ending hending
    have hlast := congrArg List.getLast? hsplit
    rw [hhumps, List.getLast?_concat, List.getLast?_append, hcase, Option.some_or] at hlast
    exact absurd hlast (by decide)
  · rw [hhumps, List.getLast?_concat]
    decide

/-- The capitalised name refers to the identifier. -/
theorem refer_idWord (h : m.LegibleId) (hm : ofDescription description = .ok m) :
    refer m.properties m.idWord = some m.idProperty := by
  have hplain : m.idWord.contains '_' = false :=
    Bool.eq_false_iff.mpr fun hmem => h.plain (List.contains_iff_mem.mp hmem)
  rw [refer, List.isEmpty_eq_false_iff.mpr h.ne_nil, if_neg Bool.false_ne_true, hplain,
    if_neg Bool.false_ne_true, searchFrom, h.restored, below, String.ofList_toList,
    (resolve?_idProperty hm).2]

theorem propertyAndOperator?_idWord (h : m.LegibleId) (hm : ofDescription description = .ok m) :
    propertyAndOperator? m.properties (m.idWord ++ "In".toList) = some (m.idProperty, .isIn) := by
  have hrefer := h.refer_idWord hm
  have hmem : (m.idWord, Operator.isIn) ∈ keywordEndings (m.idWord ++ "In".toList) :=
    mem_keywordEndings_iff.mpr ⟨"In".toList, by decide, h.ne_nil, rfl⟩
  have hfound : (refer m.properties m.idWord).map (·, Operator.isIn) = some (m.idProperty, .isIn) := by
    rw [hrefer, Option.map_some]
  rw [propertyAndOperator?, findSome?_eq_some_of_unique hmem hfound, Option.some_or]
  rintro ⟨head, operator⟩ hending _ hother
  obtain ⟨path, hpath, rfl⟩ := Option.map_eq_some_iff.mp hother
  obtain ⟨word, hword, -, htext⟩ := mem_keywordEndings_iff.mp hending
  -- Any other keyword ends in `In` as well, and has a shorter text in front of it.
  have hsuffix : "In".toList <:+ word :=
    List.suffix_of_suffix_length_le (List.suffix_append _ _) (htext ▸ List.suffix_append head word)
      (two_le_length_keywords _ hword)
  rcases keywords_in _ hword hsuffix with ⟨rfl, rfl⟩ | ⟨front, hfront, rfl⟩
  · rw [← List.append_cancel_right htext, hrefer] at hpath
    cases hpath
    rfl
  · rw [← List.append_assoc] at htext
    rw [h.unambiguous head front hfront (List.append_cancel_right htext)] at hpath
    cases hpath

/-- **A lookup by a legible identifier is read back.** -/
theorem parse_lookup (h : m.LegibleId) (hm : ofDescription description = .ok m) :
    parse m ("findBy" ++ String.ofList m.idWord ++ "In")
      = .ok (lookup m ("findBy" ++ String.ofList m.idWord ++ "In")) := by
  generalize hmethod : "findBy" ++ String.ofList m.idWord ++ "In" = method
  have htext : method.toList = "find".toList ++ ("By".toList ++ (m.idWord ++ "In".toList)) := by
    have hfindBy : "findBy".toList = "find".toList ++ "By".toList := by decide
    simp only [← hmethod, String.toList_append, String.toList_ofList, hfindBy, List.append_assoc]
  have hbody := h.isBody
  have hread := parseCriteria_body hbody (h.propertyAndOperator?_idWord hm) method
  generalize m.idWord ++ "In".toList = body at htext hbody hread
  have hcriteria : ∀ text ∈ some body, startsWord text ∧ LacksOrderBy (humps text) := by
    rintro _ ⟨⟩
    exact ⟨hbody.starts, hbody.lacksOrderBy⟩
  have horder : ∀ text ∈ (none : Option (List Char)), startsWord text ∧ LacksOrderBy (humps text) :=
    nofun
  have hclauses := clauses_append hcriteria horder
  rw [Option.elim_some, Option.elim_none, List.append_nil] at hclauses
  have hverb : ("find".toList, Action.find) ∈ verbs := by decide
  refine parse_eq_ok_iff.mpr ⟨.find, "By".toList ++ body, {}, .and, [⟨m.idProperty, .isIn, false⟩], [],
    ?_, ?_, ?_, ?_, rfl⟩
  · rw [htext]
    exact splitVerb?_append hverb rfl
  · rw [hclauses]
    rfl
  · rw [hclauses]
    obtain ⟨c, rest, rfl⟩ := List.exists_cons_of_ne_nil hbody.ne_nil
    exact hread
  · rw [hclauses]
    rfl

/-! ## Legible identifiers -/

/-- The name `id` is legible, whatever the other properties are. -/
theorem of_leaf_id (h : m.idProperty.leaf = "id") : m.LegibleId := by
  have hword : m.idWord = "Id".toList := by
    rw [idWord, h]
    decide
  refine ⟨?_, ?_, ?_, ?_, ?_, ?_, ?_⟩
  · rw [hword, h]
    decide
  · rw [hword]
    decide
  · rw [hword]
    decide
  · rw [hword]
    decide
  · rw [hword]
    decide
  · rw [hword]
    exact .of_notMem (by decide)
  · intro head word hmem htext
    -- The name ends in `d`, which none of the words does.
    have hlast := congrArg List.getLast? htext
    have hother := (by decide : ∀ word ∈ ["Is".toList, "Not".toList, "IsNot".toList],
      word.getLast? = some 's' ∨ word.getLast? = some 't') word hmem
    rw [hword, List.getLast?_append] at hlast
    rcases hother with hother | hother
    · rw [hother, Option.some_or] at hlast
      exact absurd hlast (by decide)
    · rw [hother, Option.some_or] at hlast
      exact absurd hlast (by decide)

end EntityMetadata.LegibleId

/-- Where the properties are legible, so is the identifier. -/
theorem Method.Legible.legibleId {description : EntityDescription} {m : EntityMetadata}
    (h : Legible description.properties)
    (hm : EntityMetadata.ofDescription description = .ok m) : m.LegibleId := by
  have htable := EntityMetadata.properties_of_ofDescription hm
  have hresolve := (EntityMetadata.resolve?_idProperty hm).2
  rw [htable] at hresolve
  obtain ⟨type, hdeclared, -⟩ := PropertyTable.mem_of_resolve?_build h.leaf hresolve
  have hname := h.name _ hdeclared
  have hstarts := hname.startsWord_append []
  rw [List.append_nil] at hstarts
  have hplain : (m.idWord).contains '_' = false := by
    obtain ⟨c, rest, hcapital, hupper, hrest⟩ := hname.capitalize_eq
    rw [EntityMetadata.idWord, hcapital]
    exact Text.contains_underscore
      (List.forall_mem_cons.mpr ⟨Text.isAlphanum_of_isUpper hupper, hrest⟩)
  refine ⟨Text.decapitalize_capitalize hname.camelCase, hname.capitalize_ne_nil, hstarts,
    fun hmem => Bool.eq_false_iff.mp hplain (List.contains_iff_mem.mpr hmem),
    fun word hword hmem => hname.uncut word.1 hmem ?_, hname.orderBy, ?_⟩
  · exact (by decide : ∀ word ∈ connectors, word.1 ∈
      ["And".toList, "Or".toList, "Asc".toList, "Desc".toList]) word hword
  · intro head word hword htext
    refine Option.eq_none_iff_forall_ne_some.mpr fun path hpath => ?_
    rw [htable] at hpath
    have hhead : head ≠ [] := by
      rintro rfl
      cases hpath
    have hbody : body m.idProperty.leaf none = head ++ word := by
      rw [body, Option.elim_none, List.append_nil]
      exact htext
    have hnone : ∀ keyword ∈ (none : Option (Word Operator)), keyword ∈ keywords := by
      intro keyword hkeyword
      cases hkeyword
    obtain ⟨other, hother, -, rfl⟩ := h.exists_of_refer_head hdeclared hnone hhead hbody hpath
    -- The name with `In` would be another name with a longer keyword.
    have hkeywords := (by decide : ∀ word ∈ ["Is".toList, "Not".toList, "IsNot".toList],
      word ++ "In".toList ∈ [] :: keywords.map (·.1) ∧ "In".toList ≠ word ++ "In".toList) word hword
    have hin : "In".toList ∈ [] :: keywords.map (·.1) := by decide
    have hsame := h.unambiguous _ hdeclared other hother "In".toList hin (word ++ "In".toList)
      hkeywords.1 (by rw [← List.append_assoc, ← htext]; rfl)
    exact hkeywords.2 hsame.2

end DerivedQuery
