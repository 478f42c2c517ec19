import DerivedQuery.Proofs.Entity.Declarations
import DerivedQuery.Proofs.Method.Search
import DerivedQuery.Proofs.Text.Ascii

/-!
# Names in camel case

A name in camel case consists of ASCII letters and digits, starts with a lowercase letter and does not go
on with an uppercase one. Capitalising such a name can be undone (`decapitalize_capitalize`,
`capitalize_of_decapitalize`).

A table of properties that have no properties of their own is `Flat`: it holds each declared name with a
declaration of it (`mem_of_resolve?_build`). In such a table a text refers to the property of which it is
the capitalised name and to no other (`refer_eq_some_iff`).
-/

namespace DerivedQuery

namespace Text

/-! ## Capital letters -/

/-- Letters and digits in ASCII, the first a lowercase letter and the second not an uppercase one. -/
def isCamelCase : List Char → Bool
  | [] => false
  | c :: rest => c.isLower && rest.all Char.isAlphanum && !rest.head?.any Char.isUpper

/-- Capitalising makes the first letter an uppercase one. -/
theorem capitalize_eq_cons {name : List Char} (h : isCamelCase name = true) :
    ∃ c rest, name = c :: rest ∧ c.isLower = true ∧ capitalize name = c.toUpper :: rest ∧
      c.toUpper.isUpper = true ∧ (∀ d ∈ rest, d.isAlphanum = true) ∧
      rest.head?.any isUppercase = false := by
  cases name with
  | nil => cases h
  | cons c rest =>
    rw [isCamelCase, Bool.and_eq_true, Bool.and_eq_true, Bool.not_eq_true', List.all_eq_true] at h
    obtain ⟨⟨hlower, hrest⟩, hsecond⟩ := h
    refine ⟨c, rest, rfl, hlower, ?_, ?_, hrest, ?_⟩
    · rw [capitalize, toUpper_of_isAlphanum (isAlphanum_of_isLower hlower), List.singleton_append]
    · exact (toUpper_of_isLower hlower).1
    · cases rest with
      | nil => rfl
      | cons d rest => exact (isUppercase_of_isAlphanum (hrest d List.mem_cons_self)).trans hsecond

/-- Capitalising a name can be undone. -/
theorem decapitalize_capitalize {name : List Char} (h : isCamelCase name = true) :
    decapitalize (capitalize name) = name := by
  obtain ⟨c, rest, rfl, hlower, hcapital, hupper, -, hsecond⟩ := capitalize_eq_cons h
  rw [hcapital, decapitalize, hsecond, Bool.and_false, if_neg Bool.false_ne_true,
    toLower_of_isAlphanum (isAlphanum_of_isUpper hupper), (toUpper_of_isLower hlower).2,
    List.singleton_append]

/-- A text that is decapitalised to a name is the name capitalised. -/
theorem capitalize_of_decapitalize {c : Char} {rest name : List Char} (hupper : c.isUpper = true)
    (hname : isCamelCase name = true) (h : decapitalize (c :: rest) = name) :
    capitalize name = c :: rest := by
  obtain ⟨d, tail, rfl, hlower, hcapital, -, -, -⟩ := capitalize_eq_cons hname
  obtain ⟨hnot, hagain⟩ := toLower_of_isUpper hupper
  rw [decapitalize] at h
  split at h
  · -- An acronym is kept, and then the name would not start with a lowercase letter.
    obtain ⟨rfl, -⟩ := List.cons_eq_cons.mp h
    cases hnot.symm.trans hlower
  · rw [toLower_of_isAlphanum (isAlphanum_of_isUpper hupper), List.singleton_append] at h
    obtain ⟨rfl, rfl⟩ := List.cons_eq_cons.mp h
    rw [hcapital, hagain]

/-! ## Letters and digits -/

variable {text name : List Char}

theorem isAlphanum_of_isCamelCase (h : isCamelCase name = true) : ∀ c ∈ name, c.isAlphanum = true := by
  obtain ⟨c, rest, rfl, hlower, -, -, hrest, -⟩ := capitalize_eq_cons h
  exact List.forall_mem_cons.mpr ⟨isAlphanum_of_isLower hlower, hrest⟩

theorem isAlphanum_decapitalize (h : ∀ c ∈ text, c.isAlphanum = true) :
    ∀ c ∈ decapitalize text, c.isAlphanum = true := by
  cases text with
  | nil => exact h
  | cons c rest =>
    obtain ⟨hfirst, hrest⟩ := List.forall_mem_cons.mp h
    rw [decapitalize]
    split
    · exact h
    · rw [toLower_of_isAlphanum hfirst, List.singleton_append]
      exact List.forall_mem_cons.mpr ⟨isAlphanum_toLower hfirst, hrest⟩

/-- The underscore is neither a letter nor a digit. -/
theorem contains_underscore (h : ∀ c ∈ text, c.isAlphanum = true) : text.contains '_' = false :=
  Bool.eq_false_iff.mpr fun hcontains =>
    notMem_of_isAlphanum (by decide) h (List.contains_iff_mem.mp hcontains)

end Text

/-! ## Flat tables -/

namespace PropertyTable

/-- No property has properties of its own, and each is declared under a name in camel case. -/
structure Flat (table : PropertyTable) : Prop where
  segments : ∀ {name path}, table.resolve? name = some path → path.segments = [name]
  leaf : ∀ {name path}, table.resolve? name = some path → path.type.isObject = false
  camelCase : ∀ {name path}, table.resolve? name = some path → Text.isCamelCase name.toList = true

theorem Flat.dotted_eq {table : PropertyTable} {path : PropertyPath} {name : String} (h : table.Flat)
    (hpath : table.resolve? name = some path) : path.dotted = name := by
  rw [PropertyPath.dotted, h.segments hpath, String.intercalate_singleton]

/-- The path of a declaration at the top level. -/
def topLevel (declared : String × PropertyType) : PropertyPath := ⟨[declared.1], declared.2⟩

theorem dotted_topLevel (declared : String × PropertyType) : (topLevel declared).dotted = declared.1 :=
  String.intercalate_singleton

section Build

variable {properties : List (String × PropertyType)}

theorem mem_of_resolve?_build (hleaf : ∀ declared ∈ properties, declared.2.isObject = false)
    {name : String} {path : PropertyPath} (h : (build properties).resolve? name = some path) :
    ∃ type, (name, type) ∈ properties ∧ path = topLevel (name, type) := by
  obtain ⟨hleads, hdotted⟩ := leads_of_resolve?_build h
  obtain ⟨segments, type⟩ := path
  cases hleads with
  | property hmem =>
    rw [PropertyPath.dotted, String.intercalate_singleton] at hdotted
    subst hdotted
    exact ⟨type, hmem, rfl⟩
  | field hmem _ => cases hleaf _ hmem

/-- A name that is declared once refers to its declaration. -/
theorem resolve?_build_of_mem (hleaf : ∀ declared ∈ properties, declared.2.isObject = false)
    {declared : String × PropertyType} (hmem : declared ∈ properties)
    (honce : ∀ other ∈ properties, other.1 = declared.1 → other = declared) :
    (build properties).resolve? declared.1 = some (topLevel declared) := by
  have hsome := isSome_resolve?_build (.property hmem)
  rw [String.intercalate_singleton] at hsome
  obtain ⟨path, hpath⟩ := Option.isSome_iff_exists.mp hsome
  obtain ⟨type, hdeclared, rfl⟩ := mem_of_resolve?_build hleaf hpath
  rw [hpath, honce _ hdeclared rfl]

theorem flat_build (hleaf : ∀ declared ∈ properties, declared.2.isObject = false)
    (hcamel : ∀ declared ∈ properties, Text.isCamelCase declared.1.toList = true) :
    (build properties).Flat where
  segments h := by
    obtain ⟨type, -, rfl⟩ := mem_of_resolve?_build hleaf h
    rfl
  leaf h := by
    obtain ⟨type, hmem, rfl⟩ := mem_of_resolve?_build hleaf h
    exact hleaf _ hmem
  camelCase h := by
    obtain ⟨type, hmem, rfl⟩ := mem_of_resolve?_build hleaf h
    exact hcamel _ hmem

end Build

end PropertyTable

/-! ## References -/

namespace Method

variable {table : PropertyTable} {path : PropertyPath}

/-- Without nested properties a search looks for nothing but the text itself. -/
theorem searchFrom_of_flat (hflat : table.Flat) (text : List Char) :
    searchFrom table none text = table.resolve? (String.ofList (Text.decapitalize text)) := by
  have hbehind : (heads text).findSome? (searchBehind table none) = none := by
    refine List.findSome?_eq_none_iff.mpr fun cut _ => if_neg fun hobject => ?_
    obtain ⟨found, hfound, hobject⟩ := (Option.any_eq_true _ _).mp hobject
    rw [hflat.leaf hfound] at hobject
    cases hobject
  rw [searchFrom_eq, hbehind, Option.or_none]
  rfl

/-- **A text refers to the property of which it is the capitalised name.** -/
theorem refer_eq_some_iff (hflat : table.Flat) {c : Char} {rest : List Char} (hupper : c.isUpper = true)
    (hrest : ∀ d ∈ rest, d.isAlphanum = true) :
    refer table (c :: rest) = some path ↔
      table.resolve? path.dotted = some path ∧ Text.capitalize path.dotted.toList = c :: rest := by
  have halnum : ∀ d ∈ c :: rest, d.isAlphanum = true :=
    List.forall_mem_cons.mpr ⟨Text.isAlphanum_of_isUpper hupper, hrest⟩
  rw [refer, List.isEmpty_cons, if_neg Bool.false_ne_true, Text.contains_underscore halnum,
    if_neg Bool.false_ne_true, searchFrom_of_flat hflat]
  constructor
  · intro h
    have hcamel := hflat.camelCase h
    rw [String.toList_ofList] at hcamel
    rw [hflat.dotted_eq h, String.toList_ofList]
    exact ⟨h, Text.capitalize_of_decapitalize hupper hcamel rfl⟩
  · rintro ⟨hpath, hcapital⟩
    rw [← hcapital, Text.decapitalize_capitalize (hflat.camelCase hpath), String.ofList_toList]
    exact hpath

end Method

end DerivedQuery
