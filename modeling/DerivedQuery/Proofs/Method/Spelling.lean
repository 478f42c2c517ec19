import DerivedQuery.Proofs.Entity.Metadata
import DerivedQuery.Proofs.Method.Legible

/-!
# Names that are read as they are spelled

Criteria and keys of properties at the top level are spelled by the capitalised names of the properties
and the words between them (`spell`). Where the properties are `Legible`, each scan of the parser finds
the words that were put there and no other: `OrderBy` and `By` (`clauses_append`), the connectors
(`parseCriteria_spelling`) and the directions (`parseOrder_spelling`). So parsing undoes spelling
(`parse_spell`).
-/

namespace DerivedQuery

namespace Method

open EntityMetadata (properties_of_ofDescription)

/-! ## Spelling -/

/-- A criterion of a property at the top level, by equality if there is no keyword. -/
structure CriterionSpelling where
  property : String × PropertyType
  keyword : Option (Word Operator) := none
  ignoreCase : Bool := false

namespace CriterionSpelling

variable (spelling : CriterionSpelling)

def phrase : CriterionPhrase where
  head := Text.capitalize spelling.property.1.toList
  keyword := spelling.keyword
  ending := if spelling.ignoreCase then "IgnoreCase".toList else []

def criterion : Criterion where
  property := PropertyTable.topLevel spelling.property
  operator := spelling.keyword.elim .equal (·.2)
  ignoreCase := spelling.ignoreCase

/-- The criterion is spelled by a declared property and a listed keyword. -/
structure From (properties : List (String × PropertyType)) : Prop where
  property : spelling.property ∈ properties
  keyword : ∀ word ∈ spelling.keyword, word ∈ keywords

end CriterionSpelling

/-- A key of a property at the top level. -/
abbrev KeySpelling := (String × PropertyType) × Direction

namespace KeySpelling

variable (spelling : KeySpelling)

def phrase : KeyPhrase where
  head := Text.capitalize spelling.1.1.toList
  direction := some spelling.2

def key : SortKey where
  property := spelling.1.1
  direction := spelling.2

end KeySpelling

/-- A name for criteria and keys. Without criteria there is no `By`, and without keys no `OrderBy`. -/
def spell (verb : Word Action) (connector : Connector) (criteria : List CriterionSpelling)
    (keys : List KeySpelling) : Phrase where
  verb
  criteria := if criteria = [] then none else some (criteria.map (·.phrase))
  connector
  keys := keys.map KeySpelling.phrase

/-! ## Criteria -/

/-- What a criterion ends in. -/
def ignoreCaseText (ignoreCase : Bool) : List Char := if ignoreCase then "IgnoreCase".toList else []

theorem startsWord_ignoreCaseText (ignoreCase : Bool) : startsWord (ignoreCaseText ignoreCase) := by
  cases ignoreCase <;> rfl

theorem dropEnding_body {body : List Char} (h : IsBody body) (ignoreCase : Bool) :
    dropEnding ignoreCaseEndings (body ++ ignoreCaseText ignoreCase) = (body, ignoreCase) := by
  cases ignoreCase with
  | false =>
    rw [ignoreCaseText, if_neg Bool.false_ne_true, List.append_nil]
    exact dropEnding_eq_self fun ending hending =>
      ⟨(by decide : ∀ ending ∈ ignoreCaseEndings, startsWord ending) ending hending,
        h.endings ending hending⟩
  | true =>
    rw [ignoreCaseText, if_pos rfl]
    exact dropEnding_append (by decide) (by decide)

/-- The criterion does not end as all criteria together may end. -/
theorem not_suffix_all {body : List Char} (h : IsBody body) (ignoreCase : Bool) :
    ∀ ending ∈ allIgnoreCaseEndings,
      ¬ humps ending <:+ humps (body ++ ignoreCaseText ignoreCase) := by
  intro ending hending hsuffix
  obtain ⟨inner, hinner, hhumps⟩ := (by decide : ∀ ending ∈ allIgnoreCaseEndings,
    ∃ inner ∈ ignoreCaseEndings, humps ending = "All".toList :: humps inner) ending hending
  rw [hhumps] at hsuffix
  cases ignoreCase with
  | false =>
    rw [ignoreCaseText, if_neg Bool.false_ne_true, List.append_nil] at hsuffix
    exact h.endings inner hinner ((List.suffix_cons _ _).trans hsuffix)
  | true =>
    rw [ignoreCaseText, if_pos rfl, humps_append _ rfl] at hsuffix
    obtain ⟨before, hbefore⟩ := hsuffix
    rw [List.append_cons] at hbefore
    have hlength := (by decide : ∀ inner ∈ ignoreCaseEndings,
      (humps inner).length = (humps "IgnoreCase".toList).length) inner hinner
    exact h.all (List.getLast?_eq_some_iff.mpr ⟨before, (List.append_inj' hbefore hlength).1.symm⟩)

namespace CriterionSpelling

variable {properties : List (String × PropertyType)} {spelling : CriterionSpelling}

theorem text_phrase (spelling : CriterionSpelling) : spelling.phrase.text
    = body spelling.property.1 spelling.keyword ++ ignoreCaseText spelling.ignoreCase := rfl

theorem From.isBody (h : spelling.From properties) (hlegible : Legible properties) :
    IsBody (body spelling.property.1 spelling.keyword) :=
  isBody_body (hlegible.name _ h.property) h.keyword

theorem From.isPiece (h : spelling.From properties) (hlegible : Legible properties) :
    IsPiece connectors spelling.phrase.text := by
  have hbody := h.isBody hlegible
  have hending := startsWord_ignoreCaseText spelling.ignoreCase
  refine ⟨List.append_ne_nil_of_left_ne_nil hbody.ne_nil _, startsWord_append hbody.starts hending, ?_⟩
  intro word hword hmem
  rw [text_phrase, humps_append _ hending,
    List.tail_append_of_ne_nil (humps_eq_nil_iff.not.mpr hbody.ne_nil)] at hmem
  rcases List.mem_append.mp hmem with hmem | hmem
  · exact hbody.uncut word hword hmem
  · exact absurd hmem ((by decide : ∀ word ∈ connectors, ∀ ignoreCase,
      word.1 ∉ humps (ignoreCaseText ignoreCase)) word hword spelling.ignoreCase)

theorem From.lacksOrderBy (h : spelling.From properties) (hlegible : Legible properties) :
    LacksOrderBy (humps spelling.phrase.text) := by
  have hby := (by decide : ∀ ignoreCase, "By".toList ∉ humps (ignoreCaseText ignoreCase))
    spelling.ignoreCase
  rw [text_phrase, humps_append _ (startsWord_ignoreCaseText _)]
  exact (h.isBody hlegible).lacksOrderBy.append (.of_notMem hby) fun hhead =>
    hby (List.mem_of_mem_head? hhead)

/-- A criterion is read as it was spelled. -/
theorem From.parseCriterion_eq (h : spelling.From properties) (hlegible : Legible properties)
    {m : EntityMetadata} (htable : m.properties = PropertyTable.build properties) (method : String) :
    parseCriterion m method false spelling.phrase.text = .ok spelling.criterion := by
  have hbody := h.isBody hlegible
  unfold parseCriterion
  rw [text_phrase, dropEnding_body hbody]
  dsimp only
  rw [if_neg (List.isEmpty_iff.not.mpr hbody.ne_nil), htable,
    hlegible.propertyAndOperator?_body h.property h.keyword]
  dsimp only
  rw [Bool.false_and, Bool.or_false]
  rfl

end CriterionSpelling

/-! ## Joined criteria -/

/-- A joined list ends in its last part. -/
theorem intercalate_concat (word : List Char) (texts : List (List Char)) (last : List Char) :
    word.intercalate (texts ++ [last]) = texts.flatMap (· ++ word) ++ last := by
  induction texts with
  | nil => exact List.intercalate_singleton
  | cons text texts ih =>
    obtain ⟨next, others, hnext⟩ := List.exists_cons_of_ne_nil
      (List.append_ne_nil_of_right_ne_nil texts (List.cons_ne_nil last []))
    rw [List.cons_append, hnext, List.intercalate_cons_cons, ← hnext, ih, List.flatMap_cons,
      List.append_assoc (text ++ word)]

/-- A part that is not in the ending separates it from what is before. -/
theorem suffix_of_suffix_append_cons {ending before rest : List (List Char)} {word : List Char}
    (h : ending <:+ before ++ word :: rest) (hword : word ∉ ending) : ending <:+ rest := by
  rcases List.suffix_or_suffix_of_suffix h (List.suffix_append before (word :: rest)) with h | h
  · rcases List.suffix_cons_iff.mp h with rfl | h
    · exact absurd List.mem_cons_self hword
    · exact h
  · exact absurd (h.subset List.mem_cons_self) hword

theorem lacksOrderBy_joined {ω : Type} {words : List (Word ω)} (h : IsVocabulary words)
    (hwords : ∀ word ∈ words, word.1 ≠ "Order".toList ∧ word.1 ≠ "By".toList)
    {pieces : List (List Char × Word ω)} {last : List Char}
    (hpieces : ∀ piece ∈ pieces,
      (startsWord piece.1 ∧ piece.2 ∈ words) ∧ LacksOrderBy (humps piece.1))
    (hlast : startsWord last ∧ LacksOrderBy (humps last)) :
    LacksOrderBy (humps (joined pieces last)) := by
  rw [humps_joined h (fun piece hpiece => (hpieces piece hpiece).1) hlast.1]
  induction pieces with
  | nil => exact hlast.2
  | cons piece pieces ih =>
    obtain ⟨⟨⟨-, hword⟩, hpiece⟩, hpieces⟩ := List.forall_mem_cons.mp hpieces
    obtain ⟨horder, hby⟩ := hwords _ hword
    rw [List.flatMap_cons, List.append_assoc, List.append_assoc, List.singleton_append]
    refine LacksOrderBy.append hpiece (LacksOrderBy.cons (ih hpieces) horder) fun hhead => ?_
    exact hby (Option.some.inj hhead)

section Criteria

variable {properties : List (String × PropertyType)} (connector : Connector)

/-- Criteria with the connector behind each. -/
def connected (connector : Connector) (criteria : List CriterionSpelling) :
    List (List Char × Word Connector) :=
  criteria.map fun spelling => (spelling.phrase.text, (connector.word, connector))

theorem intercalate_criteria (criteria : List CriterionSpelling) (last : CriterionSpelling) :
    connector.word.intercalate ((criteria ++ [last]).map (·.phrase.text))
      = joined (connected connector criteria) last.phrase.text := by
  rw [List.map_append, List.map_singleton, intercalate_concat, joined, connected, List.flatMap_map,
    List.flatMap_map]

theorem isPiece_of_mem_connected (h : Legible properties) {criteria : List CriterionSpelling}
    (hcriteria : ∀ spelling ∈ criteria, spelling.From properties) :
    ∀ piece ∈ connected connector criteria, IsPiece connectors piece.1 ∧ piece.2 ∈ connectors := by
  intro piece hpiece
  obtain ⟨spelling, hspelling, rfl⟩ := List.mem_map.mp hpiece
  exact ⟨(hcriteria spelling hspelling).isPiece h, mem_connectors connector⟩

theorem dropEnding_criteria (h : Legible properties) {criteria : List CriterionSpelling}
    {last : CriterionSpelling} (hcriteria : ∀ spelling ∈ criteria, spelling.From properties)
    (hlast : last.From properties) :
    dropEnding allIgnoreCaseEndings (joined (connected connector criteria) last.phrase.text)
      = (joined (connected connector criteria) last.phrase.text, false) := by
  refine dropEnding_eq_self fun ending hending => ⟨?_, fun hsuffix => ?_⟩
  · exact (by decide : ∀ ending ∈ allIgnoreCaseEndings, startsWord ending) ending hending
  · refine not_suffix_all (hlast.isBody h) last.ignoreCase ending hending ?_
    have hpieces := isPiece_of_mem_connected connector h hcriteria
    have hstarts : ∀ piece ∈ connected connector criteria,
        startsWord piece.1 ∧ piece.2 ∈ connectors :=
      fun piece hpiece => (hpieces piece hpiece).imp_left (·.starts)
    rw [humps_joined isVocabulary_connectors hstarts (hlast.isPiece h).starts] at hsuffix
    rcases List.eq_nil_or_concat' criteria with rfl | ⟨front, before, rfl⟩
    · exact hsuffix
    · rw [connected, List.map_append, List.map_singleton, List.flatMap_append,
        List.flatMap_singleton, List.append_assoc, List.append_assoc, List.singleton_append,
        ← List.append_assoc] at hsuffix
      refine suffix_of_suffix_append_cons hsuffix ?_
      exact (by decide : ∀ ending ∈ allIgnoreCaseEndings, ∀ word ∈ connectors,
        word.1 ∉ humps ending) ending hending _ (mem_connectors connector)

/-- One connector that is used is the connector. -/
theorem theConnector?_map_const (criteria : List CriterionSpelling) :
    theConnector? (criteria.map fun _ => connector)
      = some (if criteria = [] then .and else connector) := by
  cases criteria with
  | nil => rfl
  | cons first rest =>
    rw [if_neg (List.cons_ne_nil first rest)]
    refine theConnector?_of_all (List.map_eq_nil_iff.not.mpr (List.cons_ne_nil first rest)) ?_
    intro other hother
    obtain ⟨-, -, rfl⟩ := List.mem_map.mp hother
    rfl

/-- **Criteria are read as they were spelled.** -/
theorem parseCriteria_spelling {m : EntityMetadata} (h : Legible properties)
    (htable : m.properties = PropertyTable.build properties) {criteria : List CriterionSpelling}
    (hne : criteria ≠ []) (hcriteria : ∀ spelling ∈ criteria, spelling.From properties)
    (method : String) :
    parseCriteria m method (connector.word.intercalate (criteria.map (·.phrase.text)))
      = .ok (if criteria.length < 2 then .and else connector, criteria.map (·.criterion)) := by
  obtain ⟨criteria, last, rfl⟩ := (List.eq_nil_or_concat' criteria).resolve_left hne
  have hfront : ∀ spelling ∈ criteria, spelling.From properties :=
    fun spelling hspelling => hcriteria spelling (List.mem_append_left _ hspelling)
  have hlast := hcriteria last (List.mem_append_right _ List.mem_cons_self)
  have hread : ((criteria ++ [last]).map (·.phrase.text)).mapM (parseCriterion m method false)
      = .ok ((criteria ++ [last]).map (·.criterion)) := by
    refine mapM_eq_ok_iff.mpr (List.forall₂_map_left_iff.mpr (List.forall₂_map_right_iff.mpr ?_))
    exact List.forall₂_same.mpr fun spelling hspelling =>
      (hcriteria spelling hspelling).parseCriterion_eq h htable method
  have htexts : ((connected connector criteria).map fun piece => (piece.1, piece.2.2)).map (·.1) ++
      [last.phrase.text] = (criteria ++ [last]).map (·.phrase.text) := by
    rw [connected, List.map_map, List.map_map, List.map_append, List.map_singleton]
    rfl
  have hused : ((connected connector criteria).map fun piece => (piece.1, piece.2.2)).map (·.2)
      = criteria.map fun _ => connector := by
    rw [connected, List.map_map, List.map_map]
    rfl
  unfold parseCriteria
  rw [intercalate_criteria, dropEnding_criteria connector h hfront hlast]
  dsimp only
  rw [cut_joined isVocabulary_connectors (isPiece_of_mem_connected connector h hfront)
    (.inr (hlast.isPiece h))]
  dsimp only
  rw [hused, theConnector?_map_const, htexts]
  dsimp only
  rw [hread, ok_bind]
  congr 2
  simp only [List.length_append, List.length_singleton, Nat.add_one_lt_add_one_iff, Nat.lt_one_iff,
    List.length_eq_zero_iff]

/-- Criteria are there, and have no order clause in them. -/
theorem lacksOrderBy_criteria (h : Legible properties) {criteria : List CriterionSpelling}
    (hne : criteria ≠ []) (hcriteria : ∀ spelling ∈ criteria, spelling.From properties) :
    connector.word.intercalate (criteria.map (·.phrase.text)) ≠ [] ∧
      startsWord (connector.word.intercalate (criteria.map (·.phrase.text))) ∧
      LacksOrderBy (humps (connector.word.intercalate (criteria.map (·.phrase.text)))) := by
  obtain ⟨criteria, last, rfl⟩ := (List.eq_nil_or_concat' criteria).resolve_left hne
  have hlast := hcriteria last (List.mem_append_right _ List.mem_cons_self)
  have hstarts := (hlast.isPiece h).starts
  have hpieces : ∀ piece ∈ connected connector criteria,
      (startsWord piece.1 ∧ piece.2 ∈ connectors) ∧ LacksOrderBy (humps piece.1) := by
    intro piece hpiece
    obtain ⟨spelling, hspelling, rfl⟩ := List.mem_map.mp hpiece
    have hspelling := hcriteria spelling (List.mem_append_left _ hspelling)
    exact ⟨⟨(hspelling.isPiece h).starts, mem_connectors connector⟩, hspelling.lacksOrderBy h⟩
  rw [intercalate_criteria]
  exact ⟨List.append_ne_nil_of_right_ne_nil _ (hlast.isPiece h).ne_nil,
    startsWord_joined isVocabulary_connectors (fun piece hpiece => (hpieces piece hpiece).1) hstarts,
    lacksOrderBy_joined isVocabulary_connectors (by decide) hpieces ⟨hstarts, hlast.lacksOrderBy h⟩⟩

end Criteria

/-! ## Order -/

section Order

variable {properties : List (String × PropertyType)} {keys : List KeySpelling}

/-- Properties with the direction behind each. -/
def directed (keys : List KeySpelling) : List (List Char × Word Direction) :=
  keys.map fun spelling => (Text.capitalize spelling.1.1.toList, (spelling.2.word, spelling.2))

theorem flatMap_keys (keys : List KeySpelling) :
    keys.flatMap (fun spelling => spelling.phrase.text) = joined (directed keys) [] := by
  rw [joined, directed, List.flatMap_map, List.append_nil]
  rfl

theorem isPiece_of_mem_directed (h : Legible properties)
    (hkeys : ∀ spelling ∈ keys, spelling.1 ∈ properties) :
    ∀ piece ∈ directed keys, IsPiece directions piece.1 ∧ piece.2 ∈ directions := by
  intro piece hpiece
  obtain ⟨spelling, hspelling, rfl⟩ := List.mem_map.mp hpiece
  have hname := h.name _ (hkeys spelling hspelling)
  refine ⟨⟨hname.capitalize_ne_nil, ?_, fun word hword hmem => hname.uncut word.1 hmem ?_⟩,
    mem_directions spelling.2⟩
  · rw [← List.append_nil (Text.capitalize _)]
    exact hname.startsWord_append []
  · exact (by decide : ∀ word ∈ directions, word.1 ∈
      ["And".toList, "Or".toList, "Asc".toList, "Desc".toList]) word hword

/-- **An order is read as it was spelled.** -/
theorem parseOrder_spelling {m : EntityMetadata} (h : Legible properties)
    (htable : m.properties = PropertyTable.build properties) (hne : keys ≠ [])
    (hkeys : ∀ spelling ∈ keys, spelling.1 ∈ properties) (method : String) :
    parseOrder m method (keys.flatMap fun spelling => spelling.phrase.text)
      = .ok (keys.map KeySpelling.key) := by
  have hpieces := isPiece_of_mem_directed h hkeys
  have hsome : (joined (directed keys) []).isEmpty = false := by
    obtain ⟨first, rest, rfl⟩ := List.exists_cons_of_ne_nil hne
    have hname := h.name _ (hkeys first List.mem_cons_self)
    rw [directed, List.map_cons, joined_cons]
    exact List.isEmpty_eq_false_iff.mpr (List.append_ne_nil_of_left_ne_nil hname.capitalize_ne_nil _)
  unfold parseOrder
  rw [flatMap_keys, hsome, if_neg Bool.false_ne_true,
    cut_joined isVocabulary_directions hpieces (.inl rfl)]
  dsimp only
  rw [List.isEmpty_nil, if_pos rfl, List.append_nil, directed, List.map_map]
  refine mapM_eq_ok_iff.mpr (List.forall₂_map_left_iff.mpr (List.forall₂_map_right_iff.mpr ?_))
  refine List.forall₂_same.mpr fun spelling hspelling => ?_
  change parseKey m (Text.capitalize spelling.1.1.toList, spelling.2) = .ok (KeySpelling.key spelling)
  rw [parseKey, htable, h.refer_capitalize (hkeys spelling hspelling)]
  dsimp only
  rw [PropertyTable.dotted_topLevel]
  rfl

/-- The keys have no order clause in them. -/
theorem lacksOrderBy_keys (h : Legible properties)
    (hkeys : ∀ spelling ∈ keys, spelling.1 ∈ properties) :
    startsWord (keys.flatMap fun spelling => spelling.phrase.text) ∧
      LacksOrderBy (humps (keys.flatMap fun spelling => spelling.phrase.text)) := by
  have hpieces : ∀ piece ∈ directed keys,
      (startsWord piece.1 ∧ piece.2 ∈ directions) ∧ LacksOrderBy (humps piece.1) := by
    intro piece hpiece
    obtain ⟨hpiece', hword⟩ := isPiece_of_mem_directed h hkeys piece hpiece
    obtain ⟨spelling, hspelling, rfl⟩ := List.mem_map.mp hpiece
    exact ⟨⟨hpiece'.starts, hword⟩, (h.name _ (hkeys spelling hspelling)).orderBy⟩
  rw [flatMap_keys]
  exact ⟨startsWord_joined isVocabulary_directions (fun piece hpiece => (hpieces piece hpiece).1) rfl,
    lacksOrderBy_joined isVocabulary_directions (by decide) hpieces ⟨rfl, .nil⟩⟩

end Order

/-! ## Clauses -/

theorem splitFirst?_append {word rest : List Char} (hword : word ≠ []) (hstarts : startsWord rest) :
    splitFirst? word (word ++ rest) = some ([], rest) := by
  obtain ⟨c, tail, rfl⟩ := List.exists_cons_of_ne_nil hword
  rw [List.cons_append, splitFirst?, ← List.cons_append, behind?_eq_some_iff.mpr ⟨rfl, hstarts⟩]

section Clauses

variable {criteria order : Option (List Char)}

/-- The criteria stand behind the first `By`. -/
theorem cutCriteria_append (h : ∀ text ∈ criteria, startsWord text) (order : Option (List Char)) :
    cutCriteria (criteria.elim [] ("By".toList ++ ·)) order = ([], criteria, order) := by
  cases criteria with
  | none => rfl
  | some text => rw [cutCriteria, Option.elim_some, splitFirst?_append (by decide) (h text rfl)]

/-- The order stands behind the last `OrderBy`. -/
theorem splitLast?_clauses
    (hcriteria : ∀ text ∈ criteria, startsWord text ∧ LacksOrderBy (humps text))
    (horder : ∀ text ∈ order, startsWord text ∧ LacksOrderBy (humps text)) :
    splitLast? "OrderBy".toList
        (criteria.elim [] ("By".toList ++ ·) ++ order.elim [] ("OrderBy".toList ++ ·))
      = order.map (criteria.elim [] ("By".toList ++ ·), ·) := by
  cases order with
  | none =>
    rw [Option.elim_none, List.append_nil, Option.map_none]
    refine splitLast?_eq_none rfl ?_
    cases criteria with
    | none => decide
    | some text =>
      obtain ⟨hstarts, htext⟩ := hcriteria text rfl
      rw [Option.elim_some, humps_append _ hstarts]
      exact (LacksOrderBy.cons htext (by decide)).lacks
  | some text =>
    obtain ⟨hstarts, htext⟩ := horder text rfl
    refine splitLast?_append _ hstarts (splitLast?_eq_none rfl ?_)
    rw [humps_append _ hstarts]
    exact (LacksOrderBy.cons (LacksOrderBy.cons htext (by decide)) (by decide)).lacks

/-- **The clauses behind the verb are found where they were put.** -/
theorem clauses_append
    (hcriteria : ∀ text ∈ criteria, startsWord text ∧ LacksOrderBy (humps text))
    (horder : ∀ text ∈ order, startsWord text ∧ LacksOrderBy (humps text)) :
    clauses (criteria.elim [] ("By".toList ++ ·) ++ order.elim [] ("OrderBy".toList ++ ·))
      = ([], criteria, order) := by
  have hcut := cutCriteria_append (fun text htext => (hcriteria text htext).1) order
  unfold clauses
  rw [splitLast?_clauses hcriteria horder]
  cases order with
  | none =>
    rw [Option.elim_none, List.append_nil]
    exact hcut
  | some text => exact hcut

end Clauses

/-! ## Names -/

/-- What stands behind `By`, if there are criteria. -/
def spellCriteria (connector : Connector) (criteria : List CriterionSpelling) : Option (List Char) :=
  if criteria = [] then none else some (connector.word.intercalate (criteria.map (·.phrase.text)))

/-- What stands behind `OrderBy`, if there are keys. -/
def spellOrder (keys : List KeySpelling) : Option (List Char) :=
  if keys = [] then none else some (keys.flatMap fun spelling => spelling.phrase.text)

theorem lacksOrderBy_spellCriteria (connector : Connector) {properties : List (String × PropertyType)}
    (h : Legible properties) {criteria : List CriterionSpelling}
    (hcriteria : ∀ spelling ∈ criteria, spelling.From properties) :
    ∀ text ∈ spellCriteria connector criteria, startsWord text ∧ LacksOrderBy (humps text) := by
  intro text htext
  rw [spellCriteria, Option.mem_def, Option.ite_none_left_eq_some] at htext
  obtain ⟨hne, ⟨⟩⟩ := htext
  exact (lacksOrderBy_criteria connector h hne hcriteria).2

theorem lacksOrderBy_spellOrder {properties : List (String × PropertyType)} (h : Legible properties)
    {keys : List KeySpelling} (hkeys : ∀ spelling ∈ keys, spelling.1 ∈ properties) :
    ∀ text ∈ spellOrder keys, startsWord text ∧ LacksOrderBy (humps text) := by
  intro text htext
  rw [spellOrder, Option.mem_def, Option.ite_none_left_eq_some] at htext
  obtain ⟨-, ⟨⟩⟩ := htext
  exact lacksOrderBy_keys h hkeys

theorem text_spell (verb : Word Action) (connector : Connector) (criteria : List CriterionSpelling)
    (keys : List KeySpelling) :
    (spell verb connector criteria keys).text = verb.1 ++
      ((spellCriteria connector criteria).elim [] ("By".toList ++ ·) ++
        (spellOrder keys).elim [] ("OrderBy".toList ++ ·)) := by
  have hcriteria : (spell verb connector criteria keys).criteria.elim [] (fun phrases =>
      "By".toList ++ (spell verb connector criteria keys).criteriaText phrases)
        = (spellCriteria connector criteria).elim [] ("By".toList ++ ·) := by
    rw [spellCriteria, spell]
    split
    · rfl
    · rw [Option.elim_some, Option.elim_some, Phrase.criteriaText, List.append_nil, List.map_map]
      rfl
  have hkeys : (if (spell verb connector criteria keys).keys = [] then []
      else "OrderBy".toList ++ (spell verb connector criteria keys).orderText)
        = (spellOrder keys).elim [] ("OrderBy".toList ++ ·) := by
    change (if keys.map KeySpelling.phrase = [] then []
      else "OrderBy".toList ++ (keys.map KeySpelling.phrase).flatMap (·.text)) = _
    rw [spellOrder, List.flatMap_map]
    by_cases hne : keys = []
    · rw [if_pos (List.map_eq_nil_iff.mpr hne), if_pos hne, Option.elim_none]
    · rw [if_neg (List.map_eq_nil_iff.not.mpr hne), if_neg hne, Option.elim_some]
  rw [Phrase.text, Phrase.clausesText, hcriteria, hkeys]
  rfl

section Clauses

variable {properties : List (String × PropertyType)} {m : EntityMetadata}

theorem readCriteria_spelling (h : Legible properties)
    (htable : m.properties = PropertyTable.build properties) {criteria : List CriterionSpelling}
    (hcriteria : ∀ spelling ∈ criteria, spelling.From properties) (connector : Connector)
    (method : String) (hasOrder : Bool) :
    readCriteria m method hasOrder (spellCriteria connector criteria)
      = .ok (if criteria.length < 2 then .and else connector, criteria.map (·.criterion)) := by
  rw [spellCriteria]
  split
  · next hnil =>
    subst hnil
    rfl
  · next hne =>
    have hread := parseCriteria_spelling connector h htable hne hcriteria method
    obtain ⟨c, rest, htext⟩ :=
      List.exists_cons_of_ne_nil (lacksOrderBy_criteria connector h hne hcriteria).1
    rw [htext] at hread ⊢
    exact hread

theorem readOrder_spelling (h : Legible properties)
    (htable : m.properties = PropertyTable.build properties) {keys : List KeySpelling}
    (hkeys : ∀ spelling ∈ keys, spelling.1 ∈ properties) (method : String) :
    readOrder m method (spellOrder keys) = .ok (keys.map KeySpelling.key) := by
  rw [spellOrder]
  split
  · next hnil =>
    subst hnil
    rfl
  · next hne => exact parseOrder_spelling h htable hne hkeys method

end Clauses

/-- **Parsing undoes spelling.** -/
theorem parse_spell {description : EntityDescription} {m : EntityMetadata}
    (hm : EntityMetadata.ofDescription description = .ok m) (h : Legible description.properties)
    {verb : Word Action} (hverb : verb ∈ verbs) (connector : Connector)
    {criteria : List CriterionSpelling}
    (hcriteria : ∀ spelling ∈ criteria, spelling.From description.properties)
    {keys : List KeySpelling} (hkeys : ∀ spelling ∈ keys, spelling.1 ∈ description.properties) :
    parse m (String.ofList (spell verb connector criteria keys).text) = .ok {
      method := String.ofList (spell verb connector criteria keys).text
      action := verb.2
      subject := {}
      connector := if criteria.length < 2 then .and else connector
      criteria := criteria.map (·.criterion)
      order := keys.map KeySpelling.key } := by
  have htable := properties_of_ofDescription hm
  generalize hmethod : String.ofList (spell verb connector criteria keys).text = method
  have hclauses := clauses_append (lacksOrderBy_spellCriteria connector h hcriteria)
    (lacksOrderBy_spellOrder h hkeys)
  refine parse_eq_ok_iff.mpr ⟨verb.2, (spellCriteria connector criteria).elim [] ("By".toList ++ ·) ++
    (spellOrder keys).elim [] ("OrderBy".toList ++ ·), {}, _, _, _, ?_, ?_, ?_, ?_, rfl⟩
  · rw [← hmethod, String.toList_ofList, text_spell]
    refine splitVerb?_append hverb ?_
    cases spellCriteria connector criteria <;> cases spellOrder keys <;> rfl
  · rw [hclauses]
    rfl
  · rw [hclauses]
    exact readCriteria_spelling h htable hcriteria connector method _
  · rw [hclauses]
    exact readOrder_spelling h htable hkeys method

theorem legible_towns : Legible [("id", .string), ("name", .string)] where
  name := List.forall_mem_cons.mpr ⟨⟨by decide, by decide, by decide, by decide, by decide, by decide⟩,
    List.forall_mem_singleton.mpr ⟨by decide, by decide, by decide, by decide, by decide, by decide⟩⟩
  leaf := List.forall_mem_cons.mpr ⟨rfl, List.forall_mem_singleton.mpr rfl⟩
  unambiguous := by
    -- The two names start with different letters.
    have hid : Text.capitalize "id".toList = "Id".toList := by decide
    have hname : Text.capitalize "name".toList = "Name".toList := by decide
    rintro property hproperty other hother keyword - otherKeyword - htext
    rcases List.mem_pair.mp hproperty with rfl | rfl <;>
      rcases List.mem_pair.mp hother with rfl | rfl
    · exact ⟨rfl, List.append_cancel_left htext⟩
    · rw [hid, hname] at htext
      exact absurd (List.cons_eq_cons.mp htext).1 (by decide)
    · rw [hid, hname] at htext
      exact absurd (List.cons_eq_cons.mp htext).1 (by decide)
    · exact ⟨rfl, List.append_cancel_left htext⟩

/-- A name with two criteria and a key. -/
theorem parse_spell_towns :
    let properties : List (String × PropertyType) := [("id", .string), ("name", .string)]
    let m : EntityMetadata := {
      typeName := "Town", collection := "Town", idProperty := ⟨["id"], .string⟩, partitionKey := none
      properties := PropertyTable.build properties }
    EntityMetadata.ofDescription { name := "Town", properties } = .ok m ∧ Legible properties ∧
      parse m "findByNameContainingIgnoreCaseOrIdOrderByNameDesc" = .ok {
        method := "findByNameContainingIgnoreCaseOrIdOrderByNameDesc"
        action := .find
        subject := {}
        connector := .or
        criteria := [⟨⟨["name"], .string⟩, .containing, true⟩, ⟨⟨["id"], .string⟩, .equal, false⟩]
        order := [⟨"name", .desc, false⟩] } := by
  intro properties m
  have hid : ("id", .string) ∈ properties := List.mem_cons_self
  have hname : ("name", .string) ∈ properties := List.mem_cons_of_mem _ List.mem_cons_self
  let criteria : List CriterionSpelling :=
    [⟨("name", .string), some ("Containing".toList, .containing), true⟩, ⟨("id", .string), none, false⟩]
  let keys : List KeySpelling := [(("name", .string), .desc)]
  have hcriteria : ∀ spelling ∈ criteria, spelling.From properties :=
    List.forall_mem_cons.mpr ⟨⟨hname, by decide⟩, List.forall_mem_singleton.mpr ⟨hid, by decide⟩⟩
  have hkeys : ∀ spelling ∈ keys, spelling.1 ∈ properties := List.forall_mem_singleton.mpr hname
  have hm : EntityMetadata.ofDescription { name := "Town", properties } = .ok m := by with_unfolding_all rfl
  have htext : String.ofList (spell ("find".toList, .find) .or criteria keys).text
      = "findByNameContainingIgnoreCaseOrIdOrderByNameDesc" := by decide
  have hparse := parse_spell hm legible_towns
    (by decide : ("find".toList, Action.find) ∈ verbs) .or hcriteria hkeys
  rw [htext] at hparse
  exact ⟨hm, legible_towns, hparse⟩

end Method

end DerivedQuery
