import DerivedQuery.Proofs.Method.CamelCase
import DerivedQuery.Proofs.Method.Humps
import DerivedQuery.Proofs.Method.Phrase

/-!
# Legible names

Every scan of a parser looks for certain words, and knows nothing of where the name of a property starts
or ends. A name is legible if none of these words is found in it by mistake, and the properties of an
entity are `Legible` if in addition no name with a keyword behind it is another name, with a keyword or
without one.

A capitalised name with a keyword behind it is the `body` of a criterion. What the scans see of a body
are its `humps`: the words of the name, of which legibility speaks, and those of the keyword, none of
which is a word that is looked for (`reserved_keywords`). So no scan finds anything in a body
(`isBody_body`), and the property and the keyword are read as they were put there
(`propertyAndOperator?_body`).
-/

namespace DerivedQuery

namespace Method

/-! ## Legible names -/

/-- No scan takes a part of the capitalised name for anything else. -/
structure LegibleName (name : String) : Prop where
  camelCase : Text.isCamelCase name.toList = true
  uncut : ∀ word ∈ (humps (Text.capitalize name.toList)).tail,
    word ∉ ["And".toList, "Or".toList, "Asc".toList, "Desc".toList]
  orderBy : (humps (Text.capitalize name.toList)).IsChain
    fun first second => ¬ (first = "Order".toList ∧ second = "By".toList)
  ignoreCase : ¬ ["Ignore".toList, "Case".toList] <:+ humps (Text.capitalize name.toList)
  ignoringCase : ¬ ["Ignoring".toList, "Case".toList] <:+ humps (Text.capitalize name.toList)
  all : (humps (Text.capitalize name.toList)).getLast? ≠ some "All".toList

/-- The properties have legible names and no properties of their own, and their names with keywords are
all different. -/
structure Legible (properties : List (String × PropertyType)) : Prop where
  name : ∀ property ∈ properties, LegibleName property.1
  leaf : ∀ property ∈ properties, property.2.isObject = false
  unambiguous : ∀ property ∈ properties, ∀ other ∈ properties,
    ∀ keyword ∈ [] :: keywords.map (·.1), ∀ otherKeyword ∈ [] :: keywords.map (·.1),
      Text.capitalize property.1.toList ++ keyword = Text.capitalize other.1.toList ++ otherKeyword →
        property = other ∧ keyword = otherKeyword

/-! ## Vocabularies -/

theorem isVocabulary_connectors : IsVocabulary connectors := ⟨by decide, by decide, by decide⟩

theorem isVocabulary_directions : IsVocabulary directions := ⟨by decide, by decide, by decide⟩

theorem mem_connectors (connector : Connector) : (connector.word, connector) ∈ connectors := by
  cases connector <;> decide

theorem mem_directions (direction : Direction) : (direction.word, direction) ∈ directions := by
  cases direction <;> decide

/-- The words that scans look for. -/
def reserved : List (List Char) :=
  ["And".toList, "Or".toList, "Asc".toList, "Desc".toList, "Order".toList, "By".toList,
    "Ignore".toList, "Ignoring".toList, "Case".toList, "All".toList]

theorem reserved_keywords : ∀ keyword ∈ keywords, ∀ word ∈ reserved, word ∉ humps keyword.1 := by
  decide +kernel

theorem startsWord_keywords : ∀ keyword ∈ keywords, startsWord keyword.1 ∧ keyword.1 ≠ [] := by
  decide

theorem isAlphanum_keywords : ∀ keyword ∈ keywords, keyword.1.all Char.isAlphanum = true := by
  decide +kernel

theorem operator_unique :
    ∀ keyword ∈ keywords, ∀ other ∈ keywords, keyword.1 = other.1 → keyword.2 = other.2 := by
  decide +kernel

/-! ## Words of a name -/

/-- The text has no `OrderBy`. -/
def LacksOrderBy (words : List (List Char)) : Prop :=
  words.IsChain fun first second => ¬ (first = "Order".toList ∧ second = "By".toList)

namespace LacksOrderBy

variable {words rest : List (List Char)} {word : List Char}

theorem lacks (h : LacksOrderBy words) : ¬ ["Order".toList, "By".toList] <:+: words := by
  intro hfound
  have hpair := List.IsChain.infix h hfound
  exact List.isChain_pair.mp hpair ⟨rfl, rfl⟩

theorem cons (h : LacksOrderBy rest) (hword : word ≠ "Order".toList) : LacksOrderBy (word :: rest) :=
  List.isChain_cons.mpr ⟨fun _ _ hboth => hword hboth.1, h⟩

theorem append (h : LacksOrderBy words) (hrest : LacksOrderBy rest)
    (hhead : "By".toList ∉ rest.head?) : LacksOrderBy (words ++ rest) :=
  List.isChain_append.mpr ⟨h, hrest, fun _ _ _ hsecond hboth => hhead (hboth.2 ▸ hsecond)⟩

theorem of_notMem (hrest : "By".toList ∉ rest) : LacksOrderBy rest := by
  induction rest with
  | nil => exact .nil
  | cons word rest ih =>
    refine List.isChain_cons.mpr ⟨fun second hsecond hboth => ?_, ih (List.not_mem_of_not_mem_cons hrest)⟩
    exact hrest (List.mem_cons_of_mem _ (List.mem_of_mem_head? (hboth.2 ▸ hsecond)))

end LacksOrderBy

/-- A capitalised name and the keyword behind it: no scan finds anything in it. -/
structure IsBody (body : List Char) : Prop where
  ne_nil : body ≠ []
  starts : startsWord body
  uncut : ∀ word ∈ connectors, word.1 ∉ (humps body).tail
  lacksOrderBy : LacksOrderBy (humps body)
  endings : ∀ ending ∈ ignoreCaseEndings, ¬ humps ending <:+ humps body
  all : (humps body).getLast? ≠ some "All".toList

namespace LegibleName

variable {name : String}

theorem capitalize_eq (h : LegibleName name) : ∃ c rest,
    Text.capitalize name.toList = c :: rest ∧ c.isUpper = true ∧ ∀ d ∈ rest, d.isAlphanum = true := by
  obtain ⟨c, rest, -, -, hcapital, hupper, hrest, -⟩ := Text.capitalize_eq_cons h.camelCase
  exact ⟨c.toUpper, rest, hcapital, hupper, hrest⟩

theorem capitalize_ne_nil (h : LegibleName name) : Text.capitalize name.toList ≠ [] := by
  obtain ⟨c, rest, hcapital, -, -⟩ := h.capitalize_eq
  exact hcapital ▸ List.cons_ne_nil c rest

theorem startsWord_append (h : LegibleName name) (rest : List Char) :
    startsWord (Text.capitalize name.toList ++ rest) := by
  obtain ⟨c, tail, hcapital, hupper, -⟩ := h.capitalize_eq
  rw [hcapital]
  exact (Text.isUppercase_of_isAlphanum (Text.isAlphanum_of_isUpper hupper)).trans hupper

end LegibleName

/-! ## Bodies -/

section Body

variable {name : String} {keyword : Option (Word Operator)}

/-- The name and the keyword of a criterion. -/
def body (name : String) (keyword : Option (Word Operator)) : List Char :=
  Text.capitalize name.toList ++ keyword.elim [] (·.1)

theorem humps_body (hkeyword : ∀ word ∈ keyword, word ∈ keywords) :
    humps (body name keyword)
      = humps (Text.capitalize name.toList) ++ humps (keyword.elim [] (·.1)) := by
  refine humps_append _ ?_
  cases keyword with
  | none => rfl
  | some word => exact (startsWord_keywords word (hkeyword word rfl)).1

theorem reserved_body (hkeyword : ∀ word ∈ keyword, word ∈ keywords) :
    ∀ word ∈ reserved, word ∉ humps (keyword.elim [] (·.1)) := by
  cases keyword with
  | none => exact fun _ _ => List.not_mem_nil
  | some word => exact reserved_keywords word (hkeyword word rfl)

/-- A reserved word ends the body only where it ends the name. -/
theorem suffix_of_suffix_append (ending : List (List Char)) {words rest : List (List Char)}
    {last : List Char} (h : ending ++ [last] <:+ words ++ rest) (hrest : last ∉ rest) :
    ending ++ [last] <:+ words := by
  rcases List.eq_nil_or_concat' rest with rfl | ⟨front, other, rfl⟩
  · rwa [List.append_nil] at h
  · obtain ⟨before, hsplit⟩ := h
    rw [← List.append_assoc, ← List.append_assoc] at hsplit
    obtain ⟨-, hlast⟩ := List.append_inj' hsplit rfl
    cases hlast
    exact absurd (List.mem_append_right front List.mem_cons_self) hrest

theorem isBody_body (h : LegibleName name) (hkeyword : ∀ word ∈ keyword, word ∈ keywords) :
    IsBody (body name keyword) where
  ne_nil := List.append_ne_nil_of_left_ne_nil h.capitalize_ne_nil _
  starts := h.startsWord_append _
  uncut word hword := by
    rw [humps_body hkeyword, List.tail_append_of_ne_nil (humps_eq_nil_iff.not.mpr h.capitalize_ne_nil)]
    intro hmem
    rcases List.mem_append.mp hmem with hmem | hmem
    · refine h.uncut word.1 hmem ?_
      exact (by decide : ∀ word ∈ connectors, word.1 ∈
        ["And".toList, "Or".toList, "Asc".toList, "Desc".toList]) word hword
    · exact reserved_body hkeyword word.1
        ((by decide : ∀ word ∈ connectors, word.1 ∈ reserved) word hword) hmem
  lacksOrderBy := by
    have hby := reserved_body hkeyword "By".toList (by decide)
    rw [humps_body hkeyword]
    exact LacksOrderBy.append h.orderBy (.of_notMem hby) fun hhead => hby (List.mem_of_mem_head? hhead)
  endings ending hending hsuffix := by
    have hcase := reserved_body hkeyword "Case".toList (by decide)
    rw [humps_body hkeyword] at hsuffix
    rcases List.mem_pair.mp hending with rfl | rfl
    · exact h.ignoringCase (suffix_of_suffix_append ["Ignoring".toList] hsuffix hcase)
    · exact h.ignoreCase (suffix_of_suffix_append ["Ignore".toList] hsuffix hcase)
  all hlast := by
    have hall := reserved_body hkeyword "All".toList (by decide)
    rw [humps_body hkeyword] at hlast
    obtain ⟨front, hfront⟩ := List.getLast?_eq_some_iff.mp hlast
    obtain ⟨before, hbefore⟩ := suffix_of_suffix_append [] ⟨front, hfront.symm⟩ hall
    exact h.all (List.getLast?_eq_some_iff.mpr ⟨before, hbefore.symm⟩)

end Body

/-! ## References -/

namespace Legible

variable {properties : List (String × PropertyType)} {property : String × PropertyType}
variable {keyword : Option (Word Operator)}

theorem eq_of_name_eq (h : Legible properties) (hproperty : property ∈ properties)
    {other : String × PropertyType} (hother : other ∈ properties) (hname : other.1 = property.1) :
    other = property :=
  (h.unambiguous other hother property hproperty [] List.mem_cons_self [] List.mem_cons_self
    (by rw [hname])).1

theorem flat (h : Legible properties) : (PropertyTable.build properties).Flat :=
  PropertyTable.flat_build h.leaf fun declared hdeclared => (h.name declared hdeclared).camelCase

theorem refer_capitalize (h : Legible properties) (hproperty : property ∈ properties) :
    refer (PropertyTable.build properties) (Text.capitalize property.1.toList)
      = some (PropertyTable.topLevel property) := by
  obtain ⟨c, rest, hcapital, hupper, hrest⟩ := (h.name property hproperty).capitalize_eq
  rw [hcapital, refer_eq_some_iff h.flat hupper hrest, PropertyTable.dotted_topLevel]
  exact ⟨PropertyTable.resolve?_build_of_mem h.leaf hproperty fun other hother =>
    h.eq_of_name_eq hproperty hother, hcapital⟩

/-- The start of a body only refers to a property if it is the capitalised name of it. -/
theorem exists_of_refer_head (h : Legible properties) (hproperty : property ∈ properties)
    (hkeyword : ∀ word ∈ keyword, word ∈ keywords) {head rest : List Char} {path : PropertyPath}
    (hhead : head ≠ []) (hbody : body property.1 keyword = head ++ rest)
    (hrefer : refer (PropertyTable.build properties) head = some path) :
    ∃ other ∈ properties, path = PropertyTable.topLevel other ∧
      Text.capitalize other.1.toList = head := by
  obtain ⟨c, tail, hcapital, hupper, htail⟩ := (h.name property hproperty).capitalize_eq
  obtain ⟨d, head, rfl⟩ := List.exists_cons_of_ne_nil hhead
  rw [body, hcapital] at hbody
  rw [List.cons_append, List.cons_append] at hbody
  obtain ⟨rfl, hbehind⟩ := List.cons_eq_cons.mp hbody
  have hletters : ∀ e ∈ head, e.isAlphanum = true := by
    intro e he
    have hmem : e ∈ tail ++ keyword.elim [] (·.1) := hbehind ▸ List.mem_append_left rest he
    rcases List.mem_append.mp hmem with hmem | hmem
    · exact htail e hmem
    · cases keyword with
      | none => cases hmem
      | some word => exact List.all_eq_true.mp (isAlphanum_keywords word (hkeyword word rfl)) e hmem
  obtain ⟨hpath, hcapital⟩ := (refer_eq_some_iff h.flat hupper hletters).mp hrefer
  obtain ⟨type, hmem, htop⟩ := PropertyTable.mem_of_resolve?_build h.leaf hpath
  exact ⟨_, hmem, htop, hcapital⟩

/-- A keyword is only found where it was put. -/
theorem eq_of_mem_keywordEndings (h : Legible properties) (hproperty : property ∈ properties)
    (hkeyword : ∀ word ∈ keyword, word ∈ keywords) {head : List Char} {operator : Operator}
    {path : PropertyPath} (hmem : (head, operator) ∈ keywordEndings (body property.1 keyword))
    (hrefer : refer (PropertyTable.build properties) head = some path) :
    path = PropertyTable.topLevel property ∧ keyword.map (·.2) = some operator := by
  obtain ⟨word, hword, hhead, hbody⟩ := mem_keywordEndings_iff.mp hmem
  obtain ⟨other, hother, rfl, rfl⟩ := h.exists_of_refer_head hproperty hkeyword hhead hbody hrefer
  have hlisted : ∀ word ∈ keywords, word.1 ∈ [] :: keywords.map (·.1) :=
    fun word hword => List.mem_cons_of_mem _ (List.mem_map_of_mem hword)
  cases keyword with
  | none =>
    obtain ⟨-, hnil⟩ := h.unambiguous property hproperty other hother [] List.mem_cons_self word
      (hlisted _ hword) hbody
    exact absurd hnil.symm (startsWord_keywords _ hword).2
  | some found =>
    obtain ⟨rfl, hsame⟩ := h.unambiguous property hproperty other hother found.1
      (hlisted _ (hkeyword found rfl)) word (hlisted _ hword) hbody
    refine ⟨rfl, ?_⟩
    rw [Option.map_some, operator_unique found (hkeyword found rfl) _ hword hsame]

/-- **The property and the keyword of a criterion are read as they were spelled.** -/
theorem propertyAndOperator?_body (h : Legible properties) (hproperty : property ∈ properties)
    (hkeyword : ∀ word ∈ keyword, word ∈ keywords) :
    propertyAndOperator? (PropertyTable.build properties) (body property.1 keyword)
      = some (PropertyTable.topLevel property, keyword.elim .equal (·.2)) := by
  have hrefer := h.refer_capitalize hproperty
  unfold propertyAndOperator?
  cases keyword with
  | none =>
    have hnone : ∀ ending ∈ keywordEndings (body property.1 none),
        refer (PropertyTable.build properties) ending.1 = none := by
      rintro ⟨head, operator⟩ hmem
      refine Option.eq_none_iff_forall_ne_some.mpr fun path hpath => ?_
      obtain ⟨-, hfound⟩ := h.eq_of_mem_keywordEndings hproperty hkeyword hmem hpath
      cases hfound
    rw [List.findSome?_eq_none_iff.mpr fun ending hmem => Option.map_eq_none_iff.mpr (hnone ending hmem),
      Option.none_or, body, Option.elim_none, List.append_nil, hrefer, Option.map_some,
      Option.elim_none]
  | some word =>
    have hmem : (Text.capitalize property.1.toList, word.2)
        ∈ keywordEndings (body property.1 (some word)) :=
      mem_keywordEndings_iff.mpr
        ⟨word.1, hkeyword word rfl, (h.name property hproperty).capitalize_ne_nil, rfl⟩
    have hfound : (refer (PropertyTable.build properties) (Text.capitalize property.1.toList)).map
        (·, word.2) = some (PropertyTable.topLevel property, word.2) := by
      rw [hrefer, Option.map_some]
    rw [findSome?_eq_some_of_unique hmem hfound, Option.some_or, Option.elim_some]
    rintro ⟨head, operator⟩ hending _ hfound
    obtain ⟨path, hpath, rfl⟩ := Option.map_eq_some_iff.mp hfound
    obtain ⟨rfl, hoperator⟩ := h.eq_of_mem_keywordEndings hproperty hkeyword hending hpath
    cases hoperator
    rfl

end Legible

end Method

end DerivedQuery
