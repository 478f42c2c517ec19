import Mathlib.Data.String.Basic
import DerivedQuery.Proofs.Method.CamelCase
import DerivedQuery.Proofs.Method.Phrase
import DerivedQuery.Proofs.Text.Split

/-!
# References to nested properties

A property inside objects is referred to by the capitalised names that lead to it (`Method.capitals`). The
names may stand one behind the other. Then they are searched for, and where all names are in camel case
the search is sound and complete: what it finds is what the text spells (`Method.spelled_of_searchFrom`),
and it finds something whenever the text spells a declared path (`Method.isSome_searchFrom`), whatever
other paths start with the same letters. Two paths may be spelled the same; then one of them is found. With
underscores between the names, each path has its own text (`Method.refer_underscored`).
-/

namespace DerivedQuery

namespace PropertyTable

variable {properties : List (String × PropertyType)} {names : List String} {path : PropertyPath}

/-- Declarations under names in camel case, no two of one name beside each other. -/
structure CamelCased (properties : List (String × PropertyType)) : Prop where
  distinct : Distinct properties
  camelCase : ∀ {names type}, Leads properties names type →
    ∀ name ∈ names, Text.isCamelCase name.toList = true

theorem camelCased_iff : CamelCased properties ↔ Distinct properties ∧
    ∀ path ∈ paths [] properties, ∀ name ∈ path.segments, Text.isCamelCase name.toList = true := by
  rw [← forall_leads_iff (P := fun names _ => ∀ name ∈ names, Text.isCamelCase name.toList = true)]
  exact ⟨fun h => ⟨h.distinct, fun _ _ => h.camelCase⟩, fun ⟨distinct, h⟩ => ⟨distinct, h _ _⟩⟩

instance : DecidablePred CamelCased := fun _ => decidable_of_iff _ camelCased_iff.symm

theorem CamelCased.notMem_dot (h : CamelCased properties) {type : PropertyType}
    (hleads : Leads properties names type) : ∀ name ∈ names, '.' ∉ name.toList := fun name hname =>
  Text.notMem_of_isAlphanum (by decide) (Text.isAlphanum_of_isCamelCase (h.camelCase hleads name hname))

/-- Where no name has a dot in it, a dotted text is that of one path. -/
theorem CamelCased.resolve?_eq_some_iff (h : CamelCased properties) (hne : names ≠ [])
    (hnames : ∀ name ∈ names, '.' ∉ name.toList) :
    (build properties).resolve? (".".intercalate names) = some path ↔
      path.segments = names ∧ Leads properties names path.type := by
  have hfound : ∀ {path}, (build properties).resolve? (".".intercalate names) = some path →
      path.segments = names ∧ Leads properties names path.type := by
    intro path hpath
    obtain ⟨hleads, hdotted⟩ := leads_of_resolve?_build hpath
    have hsegments := congrArg Text.segments hdotted
    rw [PropertyPath.dotted, Text.segments_intercalate hleads.ne_nil (h.notMem_dot hleads),
      Text.segments_intercalate hne hnames] at hsegments
    exact ⟨hsegments, hsegments ▸ hleads⟩
  refine ⟨hfound, ?_⟩
  rintro ⟨rfl, hleads⟩
  obtain ⟨found, hpath⟩ := Option.isSome_iff_exists.mp (isSome_resolve?_build hleads)
  obtain ⟨hsegments, hother⟩ := hfound hpath
  have htype := hother.unique hleads h.distinct
  cases path
  cases found
  cases hsegments
  cases htype
  exact hpath

end PropertyTable

namespace Method

open PropertyTable

variable {properties : List (String × PropertyType)} {parents names : List String} {type : PropertyType}
  {path : PropertyPath} {text head rest : List Char}

/-! ## Parents -/

/-- The parent of what is declared behind some names. -/
def parentOf : List String → Option String
  | [] => none
  | name :: names => some (".".intercalate (name :: names))

theorem below_parentOf (parents : List String) (name : List Char) :
    below (parentOf parents) name = ".".intercalate (parents ++ [String.ofList name]) := by
  cases parents with
  | nil => exact String.intercalate_singleton.symm
  | cons first parents =>
    rw [String.intercalate_append_of_ne_nil (List.cons_ne_nil _ _) (List.cons_ne_nil _ _),
      String.intercalate_singleton]
    rfl

theorem parentOf_concat (parents : List String) (name : String) :
    parentOf (parents ++ [name]) = some (".".intercalate (parents ++ [name])) := by
  cases parents <;> rfl

/-! ## What a search finds -/

/-- The names as a reference has them. -/
def capitals (names : List String) : List (List Char) := names.map fun name => Text.capitalize name.toList

theorem flatten_capitals_cons (name : String) (names : List String) :
    (capitals (name :: names)).flatten
      = Text.capitalize name.toList ++ (capitals names).flatten := by
  rw [capitals, List.map_cons, List.flatten_cons, capitals]

/-- Letters and digits, the first one an uppercase letter. -/
structure IsCapitalized (text : List Char) : Prop where
  upper : text.head?.any Char.isUpper = true
  alphanum : ∀ c ∈ text, c.isAlphanum = true

theorem isCapitalized_iff : IsCapitalized text ↔
    text.head?.any Char.isUpper = true ∧ text.all Char.isAlphanum = true := by
  rw [List.all_eq_true]
  exact ⟨fun h => ⟨h.upper, h.alphanum⟩, fun ⟨upper, alphanum⟩ => ⟨upper, alphanum⟩⟩

instance : DecidablePred IsCapitalized := fun _ => decidable_of_iff _ isCapitalized_iff.symm

theorem isCapitalized_capitalize {name : List Char} (h : Text.isCamelCase name = true) :
    IsCapitalized (Text.capitalize name) := by
  obtain ⟨c, rest, rfl, -, hcapital, hupper, hrest, -⟩ := Text.capitalize_eq_cons h
  rw [hcapital]
  exact ⟨hupper, List.forall_mem_cons.mpr ⟨Text.isAlphanum_of_isUpper hupper, hrest⟩⟩

namespace IsCapitalized

theorem ne_nil (h : IsCapitalized text) : text ≠ [] := by
  rintro rfl
  cases h.upper

theorem starts (h : IsCapitalized text) : startsWord text := by
  obtain ⟨c, rest, rfl⟩ := List.exists_cons_of_ne_nil h.ne_nil
  rw [startsWord_cons, Text.isUppercase_of_isAlphanum (h.alphanum c List.mem_cons_self)]
  exact h.upper

theorem append (hhead : IsCapitalized head) (hrest : ∀ c ∈ rest, c.isAlphanum = true) :
    IsCapitalized (head ++ rest) where
  upper := by
    rw [List.head?_append_of_ne_nil _ hhead.ne_nil]
    exact hhead.upper
  alphanum := List.forall_mem_append.mpr ⟨hhead.alphanum, hrest⟩

/-- Two capitalised texts are a cut of the text that they make up. -/
theorem mem_heads (hhead : IsCapitalized head) (hrest : IsCapitalized rest) :
    (head, rest) ∈ heads (head ++ rest) :=
  mem_heads_iff.mpr ⟨rfl, hhead.ne_nil, hrest.ne_nil, hrest.starts⟩

/-- What a cut leaves on both sides is capitalised as well. -/
theorem of_mem_heads (h : IsCapitalized text) (hcut : (head, rest) ∈ heads text) :
    IsCapitalized head ∧ IsCapitalized rest := by
  obtain ⟨rfl, hhead, hrest, hstarts⟩ := mem_heads_iff.mp hcut
  obtain ⟨halphanum, hothers⟩ := List.forall_mem_append.mp h.alphanum
  refine ⟨⟨?_, halphanum⟩, ⟨?_, hothers⟩⟩
  · have hupper := h.upper
    rwa [List.head?_append_of_ne_nil _ hhead] at hupper
  · obtain ⟨c, tail, rfl⟩ := List.exists_cons_of_ne_nil hrest
    rw [startsWord_cons, Text.isUppercase_of_isAlphanum (hothers c List.mem_cons_self)] at hstarts
    exact hstarts

theorem notMem_dot (h : IsCapitalized text) : '.' ∉ (String.ofList (Text.decapitalize text)).toList := by
  rw [String.toList_ofList]
  exact Text.notMem_of_isAlphanum (by decide) (Text.isAlphanum_decapitalize h.alphanum)

theorem capitalize_decapitalize (h : IsCapitalized text)
    (hname : Text.isCamelCase (Text.decapitalize text) = true) :
    Text.capitalize (Text.decapitalize text) = text := by
  cases text with
  | nil => cases h.upper
  | cons c rest => exact Text.capitalize_of_decapitalize h.upper hname rfl

end IsCapitalized

theorem isCapitalized_flatten_capitals (h : ∀ name ∈ names, Text.isCamelCase name.toList = true)
    (hne : names ≠ []) : IsCapitalized (capitals names).flatten := by
  induction names with
  | nil => exact absurd rfl hne
  | cons name names ih =>
    obtain ⟨hname, hnames⟩ := List.forall_mem_cons.mp h
    rw [flatten_capitals_cons]
    refine (isCapitalized_capitalize hname).append ?_
    by_cases hlast : names = []
    · subst hlast
      exact List.forall_mem_nil _
    · exact (ih hnames hlast).alphanum

/-- What is found for a capitalised text as the last name has this name, and the text is the name
capitalised. -/
theorem of_resolve?_concat (h : CamelCased properties) (hparents : ∀ name ∈ parents, '.' ∉ name.toList)
    (htext : IsCapitalized text)
    (hfound : (build properties).resolve?
      (".".intercalate (parents ++ [String.ofList (Text.decapitalize text)])) = some path) :
    path.segments = parents ++ [String.ofList (Text.decapitalize text)] ∧
      Text.capitalize (Text.decapitalize text) = text := by
  have hdots : ∀ name ∈ parents ++ [String.ofList (Text.decapitalize text)], '.' ∉ name.toList :=
    List.forall_mem_append.mpr ⟨hparents, List.forall_mem_singleton.mpr htext.notMem_dot⟩
  have hne : parents ++ [String.ofList (Text.decapitalize text)] ≠ [] :=
    List.append_ne_nil_of_right_ne_nil _ (List.cons_ne_nil _ _)
  obtain ⟨hsegments, hleads⟩ := (h.resolve?_eq_some_iff hne hdots).mp hfound
  have hname := h.camelCase hleads _ (List.mem_append_right _ (List.mem_singleton_self _))
  rw [String.toList_ofList] at hname
  exact ⟨hsegments, htext.capitalize_decapitalize hname⟩

/-- **What a search finds is what the text spells.** -/
theorem spelled_of_searchFrom (h : CamelCased properties)
    (hparents : ∀ name ∈ parents, '.' ∉ name.toList) (htext : IsCapitalized text)
    (hfound : searchFrom (build properties) (parentOf parents) text = some path) :
    ∃ names, path.segments = parents ++ names ∧ (capitals names).flatten = text := by
  replace hfound := finds_of_searchFrom hfound
  generalize hparent : parentOf parents = parent at hfound
  induction hfound generalizing parents with
  | name hresolve =>
    subst hparent
    rw [below_parentOf] at hresolve
    obtain ⟨hsegments, hcapital⟩ := of_resolve?_concat h hparents htext hresolve
    refine ⟨_, hsegments, ?_⟩
    rw [flatten_capitals_cons, String.toList_ofList, hcapital]
    exact List.append_nil _
  | @inside _ _ head rest _ hcut hobject _ ih =>
    subst hparent
    rw [below_parentOf] at hobject ih
    obtain ⟨hhead, hrest⟩ := htext.of_mem_heads hcut
    obtain ⟨-, hcapital⟩ := of_resolve?_concat h hparents hhead hobject
    obtain ⟨names, hsegments, hspelled⟩ := ih
      (List.forall_mem_append.mpr ⟨hparents, List.forall_mem_singleton.mpr hhead.notMem_dot⟩) hrest
      (parentOf_concat parents _)
    refine ⟨String.ofList (Text.decapitalize head) :: names, ?_, ?_⟩
    · rw [hsegments, List.append_assoc, List.singleton_append]
    · rw [flatten_capitals_cons, String.toList_ofList, hcapital, hspelled, (mem_heads_iff.mp hcut).1]

/-- **A search finds something where the text spells a declared path.** -/
theorem isSome_searchFrom (h : CamelCased properties) (hleads : Leads properties (parents ++ names) type)
    (hne : names ≠ []) :
    (searchFrom (build properties) (parentOf parents) (capitals names).flatten).isSome := by
  induction names generalizing parents with
  | nil => exact absurd rfl hne
  | cons name names ih =>
    obtain ⟨hcamel, hcamels⟩ :=
      List.forall_mem_cons.mp (List.forall_mem_append.mp (h.camelCase hleads)).2
    have hname := Text.decapitalize_capitalize hcamel
    rw [List.append_cons] at hleads
    rw [searchFrom_eq, below_parentOf, Option.isSome_or, Bool.or_eq_true, flatten_capitals_cons]
    by_cases hlast : names = []
    · subst hlast
      rw [List.append_nil] at hleads
      refine .inl ?_
      rw [capitals, List.map_nil, List.flatten_nil, List.append_nil, hname, String.ofList_toList]
      exact isSome_resolve?_build hleads
    · -- The names before the last one lead to an object, in which the search goes on.
      obtain ⟨fields, hobject, -⟩ :=
        hleads.of_append (List.append_ne_nil_of_right_ne_nil _ (List.cons_ne_nil _ _)) hlast
      have hresolve : (build properties).resolve? (".".intercalate (parents ++ [name]))
          = some ⟨parents ++ [name], .object fields⟩ :=
        (h.resolve?_eq_some_iff hobject.ne_nil (h.notMem_dot hobject)).mpr ⟨rfl, hobject⟩
      have hcut := (isCapitalized_capitalize hcamel).mem_heads
        (isCapitalized_flatten_capitals hcamels hlast)
      refine .inr (List.findSome?_isSome_iff.mpr ⟨_, hcut, ?_⟩)
      rw [searchBehind]
      dsimp only
      rw [below_parentOf, ← parentOf_concat, hname, String.ofList_toList, hresolve]
      exact ih hleads hlast

/-! ## References -/

theorem refer_of_isCapitalized (table : PropertyTable) (h : IsCapitalized text) :
    refer table text = searchFrom table (parentOf []) text := by
  rw [refer, List.isEmpty_eq_false_iff.mpr h.ne_nil, if_neg Bool.false_ne_true,
    Text.contains_underscore h.alphanum, if_neg Bool.false_ne_true]
  rfl

/-- Between underscores stand the names. -/
theorem split_capitals (h : ∀ name ∈ names, Text.isCamelCase name.toList = true) (hne : names ≠ []) :
    Text.split '_' (['_'].intercalate (capitals names)) = capitals names := by
  have hpieces : ∀ piece ∈ capitals names, '_' ∉ piece := by
    intro piece hpiece
    obtain ⟨name, hname, rfl⟩ := List.mem_map.mp hpiece
    exact Text.notMem_of_isAlphanum (by decide) (isCapitalized_capitalize (h name hname)).alphanum
  have hne : capitals names ≠ [] := List.map_eq_nil_iff.not.mpr hne
  rw [Text.split_eq_splitOn, List.splitOn_intercalate '_' hpieces hne]

/-- The names can be had back from what a reference has of them. -/
theorem map_decapitalize_capitals (h : ∀ name ∈ names, Text.isCamelCase name.toList = true) :
    (capitals names).map (fun piece => String.ofList (Text.decapitalize piece)) = names := by
  rw [capitals, List.map_map]
  refine (List.map_congr_left fun name hname => ?_).trans (List.map_id names)
  rw [Function.comp_apply, Text.decapitalize_capitalize (h name hname), String.ofList_toList, id]

theorem mem_intercalate_capitals (h : 2 ≤ names.length) : '_' ∈ ['_'].intercalate (capitals names) := by
  match names, h with
  | first :: second :: more, _ =>
    rw [capitals, List.map_cons, List.map_cons, List.intercalate_cons_cons]
    exact List.mem_append_left _ (List.mem_append_right _ (List.mem_singleton_self _))

/-- With underscores between them the names are read back one by one. -/
theorem refer_underscored (h : CamelCased properties) (hleads : Leads properties names type)
    (hnested : 2 ≤ names.length) :
    refer (build properties) (['_'].intercalate (capitals names)) = some ⟨names, type⟩ := by
  have hcamel := h.camelCase hleads
  have hmark := mem_intercalate_capitals hnested
  rw [refer, List.isEmpty_eq_false_iff.mpr (List.ne_nil_of_mem hmark), if_neg Bool.false_ne_true,
    if_pos (List.contains_iff_mem.mpr hmark), split_capitals hcamel hleads.ne_nil,
    map_decapitalize_capitals hcamel]
  exact (h.resolve?_eq_some_iff hleads.ne_nil (h.notMem_dot hleads)).mpr ⟨rfl, hleads⟩

/-- **A text refers to a declared path that it spells, if there is one.** Where names are in camel case,
a capitalised text is read as the names of a declared path one behind the other, and the search for them
misses no such path; with underscores between them, the names are read as they were put there. On every
table and every text the search ends. -/
theorem refer_finds_spelled :
    (∀ properties, CamelCased properties →
      (∀ text, IsCapitalized text →
        ((refer (build properties) text).isSome ↔
          ∃ names type, Leads properties names type ∧ (capitals names).flatten = text) ∧
        ∀ path, refer (build properties) text = some path →
          Leads properties path.segments path.type ∧ (capitals path.segments).flatten = text) ∧
      ∀ names type, Leads properties names type → 2 ≤ names.length →
        refer (build properties) (['_'].intercalate (capitals names)) = some ⟨names, type⟩) ∧
    ∀ (table : PropertyTable) (parent : Option String) (text : List Char) (depth : Nat),
      text.length < depth →
        searchWithin table depth parent text = some (searchFrom table parent text) := by
  refine ⟨fun properties h => ⟨fun text htext => ?_, ?_⟩, ?_⟩
  · rw [refer_of_isCapitalized _ htext]
    have hsound : ∀ path, searchFrom (build properties) (parentOf []) text = some path →
        Leads properties path.segments path.type ∧ (capitals path.segments).flatten = text := by
      intro path hpath
      obtain ⟨names, hsegments, hspelled⟩ :=
        spelled_of_searchFrom h (List.forall_mem_nil _) htext hpath
      obtain ⟨dotted, hresolve⟩ := declared_of_searchFrom hpath
      rw [List.nil_append] at hsegments
      exact ⟨(leads_of_resolve?_build hresolve).1, hsegments ▸ hspelled⟩
    refine ⟨⟨fun hsome => ?_, ?_⟩, hsound⟩
    · obtain ⟨path, hpath⟩ := Option.isSome_iff_exists.mp hsome
      exact ⟨path.segments, path.type, hsound path hpath⟩
    · rintro ⟨names, type, hleads, rfl⟩
      exact isSome_searchFrom h hleads hleads.ne_nil
  · exact fun names type hleads hnested => refer_underscored h hleads hnested
  · exact fun table parent text depth => searchWithin_eq_some table parent

/-- A name that starts with the name of an object does not keep a search from what is inside the object,
and underscores tell the two apart. -/
theorem refer_finds_spelled_places :
    let properties : List (String × PropertyType) :=
      [("address", .object [("city", .string), ("geo", .object [("lat", .float)])]),
        ("addressCity", .int), ("addressGeo", .object [("lon", .float)])]
    CamelCased properties ∧
      (refer (build properties) "AddressGeoLat".toList).isSome ∧
      (∀ path, refer (build properties) "AddressCity".toList = some path →
        (capitals path.segments).flatten = "AddressCity".toList) ∧
      refer (build properties) "Address_City".toList = some ⟨["address", "city"], .string⟩ ∧
      searchWithin (build properties) 14 none "AddressGeoLat".toList
        = some (searchFrom (build properties) none "AddressGeoLat".toList) := by
  intro properties
  obtain ⟨hrefer, hends⟩ := refer_finds_spelled
  have hcamel : CamelCased properties := by decide
  obtain ⟨hspelled, hunderscored⟩ := hrefer properties hcamel
  have hcity : Leads properties ["address", "city"] .string := .field (.head _) (.property (.head _))
  have hlat : Leads properties ["address", "geo", "lat"] .float :=
    .field (.head _) (.field (.tail _ (.head _)) (.property (.head _)))
  refine ⟨hcamel, ?_, fun path hpath => ?_, ?_, hends _ _ _ _ (by decide)⟩
  · exact (hspelled _ (by decide)).1.mpr ⟨_, _, hlat, by decide⟩
  · exact ((hspelled _ (by decide)).2 path hpath).2
  · exact hunderscored _ _ hcity (by decide)

end Method

end DerivedQuery
