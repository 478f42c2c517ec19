import Mathlib.Data.List.Forall2
import DerivedQuery.Method.Parser
import DerivedQuery.Proofs.Failure
import DerivedQuery.Proofs.Method.Clauses
import DerivedQuery.Proofs.Method.Occurrence
import DerivedQuery.Proofs.Method.Search

/-!
# Phrases

A `Phrase` is a method name in its parts: a verb, a subject, the criteria behind `By`, joined by one
connector, and the keys behind `OrderBy`. `Phrase.text` is the name, and `Phrase.Means` says which
operations it may stand for.

A name is only parsed to an operation if it is the text of a phrase with that meaning
(`exists_phrase_of_parse`): each cut of the parser gives back the text that it was given, so no character
of the name is left out, and what the pieces mean is what the parser takes them for.
-/

namespace DerivedQuery

/-- The word for a connector. -/
def Connector.word : Connector → List Char
  | and => "And".toList
  | or => "Or".toList

/-- The word for a direction. -/
def Direction.word : Direction → List Char
  | asc => "Asc".toList
  | desc => "Desc".toList

/-- A property of the entity. -/
def EntityMetadata.Declares (m : EntityMetadata) (path : PropertyPath) : Prop :=
  ∃ name, m.properties.resolve? name = some path

namespace Method

/-- A criterion as it is spelled. -/
structure CriterionPhrase where
  /-- What refers to the property. -/
  head : List Char
  /-- Without a keyword the operator is equality. -/
  keyword : Option (Word Operator) := none
  /-- What makes the criterion ignore case, if anything does. -/
  ending : List Char := []

/-- A key of the order clause as it is spelled. -/
structure KeyPhrase where
  /-- What refers to the property. -/
  head : List Char
  /-- Without a word for it the direction is ascending. -/
  direction : Option Direction := none

/-- A method name as it is spelled. -/
structure Phrase where
  verb : Word Action
  subject : List Char := []
  /-- What stands behind `By`, if there is a `By`. -/
  criteria : Option (List CriterionPhrase) := none
  connector : Connector := .and
  /-- What makes all criteria ignore case, if anything does. -/
  ending : List Char := []
  keys : List KeyPhrase := []

/-! ## Texts -/

def CriterionPhrase.text (phrase : CriterionPhrase) : List Char :=
  phrase.head ++ phrase.keyword.elim [] (·.1) ++ phrase.ending

def KeyPhrase.text (phrase : KeyPhrase) : List Char := phrase.head ++ phrase.direction.elim [] (·.word)

namespace Phrase

variable (phrase : Phrase)

/-- What stands behind `By`. -/
def criteriaText (criteria : List CriterionPhrase) : List Char :=
  phrase.connector.word.intercalate (criteria.map (·.text)) ++ phrase.ending

/-- What stands behind `OrderBy`. -/
def orderText : List Char := phrase.keys.flatMap (·.text)

/-- What stands behind the verb. -/
def clausesText : List Char :=
  phrase.subject ++ phrase.criteria.elim [] (fun criteria => "By".toList ++ phrase.criteriaText criteria)
    ++ if phrase.keys = [] then [] else "OrderBy".toList ++ phrase.orderText

/-- The method name. -/
def text : List Char := phrase.verb.1 ++ phrase.clausesText

end Phrase

/-! ## Meanings -/

/-- A phrase stands for a criterion. -/
structure CriterionPhrase.Means (m : EntityMetadata) (allIgnoreCase : Prop) (phrase : CriterionPhrase)
    (criterion : Criterion) : Prop where
  head_ne_nil : phrase.head ≠ []
  refers : refer m.properties phrase.head = some criterion.property
  declared : m.Declares criterion.property
  keyword : ∀ keyword ∈ phrase.keyword, keyword ∈ keywords
  operator : criterion.operator = phrase.keyword.elim .equal (·.2)
  ending : phrase.ending = [] ∨ phrase.ending ∈ ignoreCaseEndings
  ignoreCase : criterion.ignoreCase = true ↔
    phrase.ending ≠ [] ∨ (allIgnoreCase ∧ criterion.property.type.isTextual = true)

/-- A phrase stands for a key of the order. -/
structure KeyPhrase.Means (m : EntityMetadata) (phrase : KeyPhrase) (key : SortKey) : Prop where
  refers : ∃ path, refer m.properties phrase.head = some path ∧ m.Declares path ∧
    key.property = path.dotted
  direction : key.direction = phrase.direction.getD .asc
  ignoreCase : key.ignoreCase = false

/-- A phrase stands for an operation. -/
structure Phrase.Means (m : EntityMetadata) (phrase : Phrase) (operation : Operation) : Prop where
  method : operation.method = String.ofList phrase.text
  verb : phrase.verb ∈ verbs
  action : operation.action = phrase.verb.2
  /-- No `By` is left in the subject. -/
  uncut : ¬ HasWord "By".toList phrase.subject
  subject : parseSubject phrase.subject = .ok operation.subject
  connector : operation.connector = phrase.connector
  criteria : List.Forall₂ (CriterionPhrase.Means m (phrase.ending ≠ []))
    (phrase.criteria.getD []) operation.criteria
  ending : phrase.ending = [] ∨ phrase.ending ∈ allIgnoreCaseEndings
  /-- Only before an order clause may `By` stand without criteria. -/
  alone : phrase.criteria = some [] → phrase.ending = [] ∧ phrase.keys ≠ []
  keys : List.Forall₂ (KeyPhrase.Means m) phrase.keys operation.order
  /-- Only the last key may leave its direction out. -/
  directions : ∀ key ∈ phrase.keys.dropLast, key.direction.isSome

/-! ## References -/

/-- What a search finds is declared. -/
theorem declared_of_searchFrom {table : PropertyTable} {parent : Option String} {text : List Char}
    {path : PropertyPath} (h : searchFrom table parent text = some path) :
    ∃ name, table.resolve? name = some path := by
  replace h := finds_of_searchFrom h
  induction h with
  | name hfound => exact ⟨_, hfound⟩
  | inside _ _ _ ih => exact ih

/-- What a text refers to is declared. -/
theorem declared_of_refer {m : EntityMetadata} {text : List Char} {path : PropertyPath}
    (h : refer m.properties text = some path) : text ≠ [] ∧ m.Declares path := by
  unfold refer at h
  split at h
  · cases h
  · next hne =>
    refine ⟨fun hnil => hne (hnil ▸ rfl), ?_⟩
    split at h
    · exact ⟨_, h⟩
    · exact declared_of_searchFrom h

/-! ## Criteria -/

theorem mem_keywordEndings_iff {text head : List Char} {operator : Operator} :
    (head, operator) ∈ keywordEndings text ↔
      ∃ word, (word, operator) ∈ keywords ∧ head ≠ [] ∧ text = head ++ word := by
  unfold keywordEndings
  simp only [List.mem_map, List.mem_mergeSort, List.mem_filter, Bool.and_eq_true, decide_eq_true_eq,
    List.isSuffixOf_iff_suffix]
  constructor
  · rintro ⟨⟨word, _⟩, ⟨hkeyword, hlength, front, rfl⟩, ⟨⟩⟩
    rw [List.length_append, Nat.add_sub_cancel, List.take_left]
    rw [List.length_append] at hlength
    exact ⟨word, hkeyword, List.length_pos_iff.mp (by omega), rfl⟩
  · rintro ⟨word, hkeyword, hhead, rfl⟩
    have hpos := List.length_pos_iff.mpr hhead
    refine ⟨(word, operator), ⟨hkeyword, ?_, List.suffix_append head word⟩, ?_⟩
    · rw [List.length_append]
      exact Nat.lt_add_of_pos_left hpos
    · rw [List.length_append, Nat.add_sub_cancel, List.take_left]

/-- The property and the operator of a criterion are spelled before its end. -/
theorem of_propertyAndOperator? {table : PropertyTable} {text : List Char} {path : PropertyPath}
    {operator : Operator} (h : propertyAndOperator? table text = some (path, operator)) :
    ∃ head keyword, text = head ++ Option.elim keyword [] (·.1) ∧ refer table head = some path ∧
      (∀ word ∈ keyword, word ∈ keywords) ∧ operator = Option.elim keyword .equal (·.2) := by
  rcases Option.or_eq_some_iff.mp h with hkeyword | ⟨-, hbare⟩
  · obtain ⟨⟨head, _⟩, hmem, hfound⟩ := List.exists_of_findSome?_eq_some hkeyword
    obtain ⟨found, hrefer, ⟨⟩⟩ := Option.map_eq_some_iff.mp hfound
    obtain ⟨word, hword, -, rfl⟩ := mem_keywordEndings_iff.mp hmem
    refine ⟨head, some (word, operator), rfl, hrefer, ?_, rfl⟩
    rintro _ ⟨⟩
    exact hword
  · obtain ⟨found, hrefer, ⟨⟩⟩ := Option.map_eq_some_iff.mp hbare
    exact ⟨text, none, (List.append_nil text).symm, hrefer, nofun, rfl⟩

theorem of_parseCriterion {m : EntityMetadata} {method : String} {allIgnoreCase : Bool}
    {text : List Char} {criterion : Criterion}
    (h : parseCriterion m method allIgnoreCase text = .ok criterion) :
    ∃ phrase : CriterionPhrase, phrase.text = text ∧ phrase.Means m (allIgnoreCase = true) criterion := by
  obtain ⟨ending, htext, hending, hflag⟩ :=
    eq_append_of_dropEnding (by decide : [] ∉ ignoreCaseEndings) text
  unfold parseCriterion at h
  generalize dropEnding ignoreCaseEndings text = dropped at h htext hflag
  obtain ⟨body, ignoreCase⟩ := dropped
  dsimp only at h htext hflag
  split at h
  · cases h
  · split at h
    · cases h
    · next path operator hfound =>
      cases h
      obtain ⟨head, keyword, rfl, hrefer, hkeyword, hoperator⟩ := of_propertyAndOperator? hfound
      obtain ⟨hne, hdeclared⟩ := declared_of_refer hrefer
      refine ⟨⟨head, keyword, ending⟩, htext.symm, hne, hrefer, hdeclared, hkeyword, hoperator,
        hending, ?_⟩
      rw [Bool.or_eq_true, Bool.and_eq_true, hflag]

/-- The pieces of which the criteria are parsed are the texts of phrases for them. -/
theorem exists_criterionPhrases {m : EntityMetadata} {method : String} {allIgnoreCase : Bool}
    {texts : List (List Char)} {criteria : List Criterion}
    (h : List.Forall₂ (fun text criterion => parseCriterion m method allIgnoreCase text = .ok criterion)
      texts criteria) :
    ∃ phrases : List CriterionPhrase, phrases.map (·.text) = texts ∧
      List.Forall₂ (CriterionPhrase.Means m (allIgnoreCase = true)) phrases criteria := by
  induction h with
  | nil => exact ⟨[], rfl, .nil⟩
  | cons hpiece _ ih =>
    obtain ⟨phrase, rfl, hmeans⟩ := of_parseCriterion hpiece
    obtain ⟨phrases, rfl, hphrases⟩ := ih
    exact ⟨phrase :: phrases, List.map_cons, .cons hmeans hphrases⟩

theorem word_of_mem_connectors {word : List Char} {connector : Connector}
    (h : (word, connector) ∈ connectors) : word = connector.word := by
  unfold connectors at h
  simp only [List.mem_cons, Prod.mk.injEq, List.not_mem_nil, or_false] at h
  rcases h with ⟨rfl, rfl⟩ | ⟨rfl, rfl⟩ <;> rfl

/-- All connectors that are used are the one that is given. -/
theorem eq_of_theConnector? {used : List Connector} {connector : Connector}
    (h : theConnector? used = some connector) : ∀ other ∈ used, other = connector := by
  unfold theConnector? at h
  intro other hother
  have hcontains : used.contains other = true := List.contains_iff_mem.mpr hother
  cases other <;> cases connector <;> simp_all

/-- Pieces cut at one connector are joined by its word. -/
theorem Cuts.text_eq_intercalate {last text : List Char} {pieces : List (List Char × Connector)}
    {connector : Connector} (h : Cuts connectors last pieces text)
    (hsame : ∀ piece ∈ pieces, piece.2 = connector) :
    text = connector.word.intercalate (pieces.map (·.1) ++ [last]) := by
  induction h with
  | last => rw [List.map_nil, List.nil_append, List.intercalate_singleton]
  | @piece piece word rest meaning pieces hword _ ih =>
    obtain ⟨rfl, hsame⟩ := List.forall_mem_cons.mp hsame
    obtain ⟨next, others, hnext⟩ := List.exists_cons_of_ne_nil
      (List.append_ne_nil_of_right_ne_nil (pieces.map (·.1)) (List.cons_ne_nil last []))
    rw [List.map_cons, List.cons_append, hnext, List.intercalate_cons_cons, ← hnext, ← ih hsame,
      word_of_mem_connectors hword]

theorem of_parseCriteria {m : EntityMetadata} {method : String} {text : List Char}
    {connector : Connector} {criteria : List Criterion}
    (h : parseCriteria m method text = .ok (connector, criteria)) :
    ∃ (phrases : List CriterionPhrase) (ending : List Char), phrases ≠ [] ∧
      text = connector.word.intercalate (phrases.map (·.text)) ++ ending ∧
      (ending = [] ∨ ending ∈ allIgnoreCaseEndings) ∧
      List.Forall₂ (CriterionPhrase.Means m (ending ≠ [])) phrases criteria := by
  obtain ⟨ending, htext, hending, hflag⟩ :=
    eq_append_of_dropEnding (by decide : [] ∉ allIgnoreCaseEndings) text
  unfold parseCriteria at h
  generalize dropEnding allIgnoreCaseEndings text = dropped at h htext hflag
  obtain ⟨body, allIgnoreCase⟩ := dropped
  dsimp only at h htext hflag
  have hcuts := cuts_cut (by decide : ∀ word ∈ connectors, word.1 ≠ []) body
  generalize cut connectors body = pieces at h hcuts
  obtain ⟨joined, last⟩ := pieces
  dsimp only at h hcuts
  split at h
  · cases h
  · next found hfound =>
    obtain ⟨parsed, hparsed, ⟨⟩⟩ := bind_eq_ok_iff.mp h
    have hsame : ∀ piece ∈ joined, piece.2 = connector :=
      fun piece hpiece => eq_of_theConnector? hfound piece.2 (List.mem_map_of_mem hpiece)
    obtain ⟨phrases, htexts, hphrases⟩ := exists_criterionPhrases (mapM_eq_ok_iff.mp hparsed)
    refine ⟨phrases, ending, ?_, ?_, hending, by simpa only [hflag] using hphrases⟩
    · rintro rfl
      simp at htexts
    · rw [htexts, ← hcuts.text_eq_intercalate hsame, htext]

/-! ## Order -/

theorem word_of_mem_directions {word : List Char} {direction : Direction}
    (h : (word, direction) ∈ directions) : word = direction.word := by
  unfold directions at h
  simp only [List.mem_cons, Prod.mk.injEq, List.not_mem_nil, or_false] at h
  rcases h with ⟨rfl, rfl⟩ | ⟨rfl, rfl⟩ <;> rfl

/-- Pieces cut at directions stand in front of their words. -/
theorem Cuts.text_eq_flatMap {last text : List Char} {pieces : List (List Char × Direction)}
    (h : Cuts directions last pieces text) :
    text = pieces.flatMap (fun piece => piece.1 ++ piece.2.word) ++ last := by
  induction h with
  | last => rfl
  | piece hword _ ih =>
    rw [List.flatMap_cons, List.append_assoc (_ ++ _), ← ih, word_of_mem_directions hword]

theorem of_parseKey {m : EntityMetadata} {phrase : KeyPhrase} {key : SortKey}
    (h : parseKey m (phrase.head, phrase.direction.getD .asc) = .ok key) : phrase.Means m key := by
  unfold parseKey at h
  split at h
  · next path hrefer =>
    cases h
    exact ⟨⟨path, hrefer, (declared_of_refer hrefer).2, rfl⟩, rfl, rfl⟩
  · cases h

/-- A key has a word for its direction, unless it is what is left at the end. -/
def keyPhrases (pieces : List (List Char × Direction)) (last : List Char) : List KeyPhrase :=
  pieces.map (fun piece => ⟨piece.1, some piece.2⟩) ++ if last.isEmpty then [] else [⟨last, none⟩]

section KeyPhrases

variable (pieces : List (List Char × Direction)) (last : List Char)

theorem flatMap_keyPhrases : (keyPhrases pieces last).flatMap (·.text)
    = pieces.flatMap (fun piece => piece.1 ++ piece.2.word) ++ last := by
  have hlast : (if last.isEmpty then [] else [⟨last, none⟩] : List KeyPhrase).flatMap (·.text)
      = last := by
    split
    · next hnil => exact (List.isEmpty_iff.mp hnil).symm
    · rw [List.flatMap_singleton, KeyPhrase.text, Option.elim_none, List.append_nil]
  rw [keyPhrases, List.flatMap_append, hlast, List.flatMap_map]
  rfl

theorem map_keyPhrases : (keyPhrases pieces last).map (fun key => (key.head, key.direction.getD .asc))
    = pieces ++ if last.isEmpty then [] else [(last, .asc)] := by
  have hpieces : (pieces.map fun piece => (⟨piece.1, some piece.2⟩ : KeyPhrase)).map
      (fun key => (key.head, key.direction.getD .asc)) = pieces := by
    rw [List.map_map]
    exact List.map_id pieces
  rw [keyPhrases, List.map_append, hpieces]
  split <;> rfl

theorem isSome_of_mem_dropLast_keyPhrases :
    ∀ key ∈ (keyPhrases pieces last).dropLast, key.direction.isSome := by
  have hpieces : ∀ key ∈ pieces.map fun piece => (⟨piece.1, some piece.2⟩ : KeyPhrase),
      key.direction.isSome := by
    intro key hkey
    obtain ⟨piece, -, rfl⟩ := List.mem_map.mp hkey
    rfl
  rw [keyPhrases]
  split
  · rw [List.append_nil]
    exact fun key hkey => hpieces key ((List.dropLast_sublist _).mem hkey)
  · rwa [List.dropLast_concat]

end KeyPhrases

theorem of_parseOrder {m : EntityMetadata} {method : String} {text : List Char} {order : Sorting}
    (h : parseOrder m method text = .ok order) :
    ∃ keys : List KeyPhrase, keys ≠ [] ∧ text = keys.flatMap (·.text) ∧
      List.Forall₂ (KeyPhrase.Means m) keys order ∧
      ∀ key ∈ keys.dropLast, key.direction.isSome := by
  have hcuts := cuts_cut (by decide : ∀ word ∈ directions, word.1 ≠ []) text
  unfold parseOrder at h
  generalize cut directions text = pieces at h hcuts
  obtain ⟨pieces, last⟩ := pieces
  dsimp only at h hcuts
  split at h
  · cases h
  · next hne =>
    have htext : text = (keyPhrases pieces last).flatMap (·.text) := by
      rw [flatMap_keyPhrases, ← hcuts.text_eq_flatMap]
    have hkeys := mapM_eq_ok_iff.mp h
    rw [← map_keyPhrases, List.forall₂_map_left_iff] at hkeys
    refine ⟨keyPhrases pieces last, ?_, htext, hkeys.imp fun _ _ => of_parseKey,
      isSome_of_mem_dropLast_keyPhrases pieces last⟩
    intro hnil
    rw [hnil] at htext
    exact hne (List.isEmpty_iff.mpr htext)

/-! ## Names -/

theorem of_readCriteria {m : EntityMetadata} {method : String} {hasOrder : Bool}
    {text : Option (List Char)} {connector : Connector} {criteria : List Criterion}
    (h : readCriteria m method hasOrder text = .ok (connector, criteria)) :
    ∃ (phrases : Option (List CriterionPhrase)) (ending : List Char),
      text = phrases.map (fun list =>
        connector.word.intercalate (list.map (·.text)) ++ ending) ∧
      List.Forall₂ (CriterionPhrase.Means m (ending ≠ [])) (phrases.getD []) criteria ∧
      (ending = [] ∨ ending ∈ allIgnoreCaseEndings) ∧
      (phrases = some [] → ending = [] ∧ hasOrder = true) := by
  rcases text with - | - | ⟨c, rest⟩
  · cases h
    exact ⟨none, [], rfl, .nil, .inl rfl, nofun⟩
  · cases hasOrder with
    | false => cases h
    | true =>
      cases h
      exact ⟨some [], [], rfl, .nil, .inl rfl, fun _ => ⟨rfl, rfl⟩⟩
  · obtain ⟨phrases, ending, hne, htext, hending, hmeans⟩ := of_parseCriteria h
    refine ⟨some phrases, ending, by rw [htext, Option.map_some], hmeans, hending, ?_⟩
    intro hnil
    exact absurd (Option.some.inj hnil) hne

theorem of_readOrder {m : EntityMetadata} {method : String} {text : Option (List Char)}
    {order : Sorting} (h : readOrder m method text = .ok order) :
    ∃ keys : List KeyPhrase, (keys ≠ [] ↔ text.isSome) ∧
      (∀ behind ∈ text, behind = keys.flatMap (·.text)) ∧
      List.Forall₂ (KeyPhrase.Means m) keys order ∧
      ∀ key ∈ keys.dropLast, key.direction.isSome := by
  cases text with
  | none =>
    cases h
    exact ⟨[], iff_of_false (not_not_intro rfl) Bool.false_ne_true, nofun, .nil, nofun⟩
  | some text =>
    obtain ⟨keys, hne, htext, hkeys, hdirections⟩ := of_parseOrder h
    refine ⟨keys, iff_of_true hne rfl, ?_, hkeys, hdirections⟩
    rintro _ ⟨⟩
    exact htext

/-- **A name is only parsed to an operation that a phrase with this text means.** -/
theorem exists_phrase_of_parse {m : EntityMetadata} {method : String} {operation : Operation}
    (h : parse m method = .ok operation) :
    ∃ phrase : Phrase, phrase.text = method.toList ∧ phrase.Means m operation := by
  obtain ⟨action, text, subject, connector, criteria, order, hsplit, hsubject, hcriteria, horder,
    rfl⟩ := parse_eq_ok_iff.mp h
  obtain ⟨verb, hverb, hmethod, -⟩ := splitVerb?_eq_some hsplit
  generalize hclauses : clauses text = parts at hsubject hcriteria horder
  obtain ⟨subjectText, criteriaText, orderText⟩ := parts
  obtain ⟨phrases, ending, rfl, hcriteria, hending, halone⟩ := of_readCriteria hcriteria
  obtain ⟨keys, hkeys, hbehind, horder, hdirections⟩ := of_readOrder horder
  let phrase : Phrase := ⟨(verb, action), subjectText, phrases, connector, ending, keys⟩
  have htext : phrase.text = method.toList := by
    rw [hmethod, clauses_eq hclauses]
    change verb ++ (subjectText ++ phrases.elim [] _ ++ if keys = [] then [] else _) = _
    congr 2
    · cases phrases <;> rfl
    · cases orderText with
      | none => rw [if_pos (not_not.mp fun hne => Bool.false_ne_true (hkeys.mp hne)), Option.elim_none]
      | some behind => rw [if_neg (hkeys.mpr rfl), Option.elim_some, hbehind behind rfl]; rfl
  refine ⟨phrase, htext, ?_, hverb, rfl, ?_, hsubject, rfl, hcriteria, hending, ?_, horder, hdirections⟩
  · rw [htext, String.ofList_toList]
  · exact (isSubject_iff.mpr (congrArg Prod.fst hclauses)).not_hasWord_by
  · intro hnil
    obtain ⟨hending, hsome⟩ := halone hnil
    exact ⟨hending, hkeys.mpr hsome⟩

/-- A name with two criteria and a key has its phrase. -/
theorem exists_phrase_of_parse_towns :
    let m : EntityMetadata := { (default : EntityMetadata) with
      typeName := "Town", properties := PropertyTable.build [("name", .string)] }
    let method := "findByNameNotOrNameIgnoreCaseOrderByNameDesc"
    ∃ operation, parse m method = .ok operation ∧
      ∃ phrase : Phrase, phrase.text = method.toList ∧ phrase.Means m operation := by
  have hparse : parse { (default : EntityMetadata) with
      typeName := "Town", properties := PropertyTable.build [("name", .string)] }
      "findByNameNotOrNameIgnoreCaseOrderByNameDesc" = .ok {
        method := "findByNameNotOrNameIgnoreCaseOrderByNameDesc"
        action := .find, subject := {}, connector := .or
        criteria := [⟨⟨["name"], .string⟩, .notEqual, false⟩, ⟨⟨["name"], .string⟩, .equal, true⟩]
        order := [⟨"name", .desc, false⟩] } := by
    with_unfolding_all rfl
  exact ⟨_, hparse, exists_phrase_of_parse hparse⟩

end Method

end DerivedQuery
