import Mathlib.Data.List.Nodup
import Mathlib.Data.String.Basic
import DerivedQuery.Entity.PropertyTable
import DerivedQuery.Proofs.Collection.Entries

/-!
# Declared paths

A path is declared if its names lead from the declarations to a property, each of them but the last one
through an object (`PropertyTable.Leads`). The table of the declarations holds these paths and no others
(`PropertyTable.build_holds_declared`).

Building a table puts the declared paths into it one after the other (`PropertyTable.build_eq_ofList`), so
of paths with one dotted text the last one stays. What a table holds is known from this list alone.
-/

namespace DerivedQuery

/-- The declarations in a type; only an object has any. -/
def PropertyType.fields : PropertyType → List (String × PropertyType)
  | .object fields => fields
  | _ => []

namespace PropertyTable

variable {properties fields : List (String × PropertyType)} {names front back parents : List String}
  {type other : PropertyType} {path : PropertyPath}

/-! ## Paths through objects -/

/-- The names lead from the declarations to a property of the type: the first one is declared there, and
each other one is a field of the object that the names before it lead to. -/
inductive Leads : List (String × PropertyType) → List String → PropertyType → Prop where
  | property {properties : List (String × PropertyType)} {name : String} {type : PropertyType}
      (h : (name, type) ∈ properties) : Leads properties [name] type
  | field {properties fields : List (String × PropertyType)} {name : String} {names : List String}
      {type : PropertyType} (h : (name, .object fields) ∈ properties)
      (hfield : Leads fields names type) : Leads properties (name :: names) type

namespace Leads

theorem ne_nil (h : Leads properties names type) : names ≠ [] := by
  cases h with
  | property _ => exact List.cons_ne_nil _ _
  | field _ _ => exact List.cons_ne_nil _ _

/-- The first name is declared at the top. -/
theorem exists_head (h : Leads properties names type) :
    ∃ first rest outer, names = first :: rest ∧ (first, outer) ∈ properties := by
  cases h with
  | property h => exact ⟨_, _, _, rfl, h⟩
  | field h _ => exact ⟨_, _, _, rfl, h⟩

/-- Names go on inside an object. -/
theorem append (h : Leads properties front (.object fields)) (hback : Leads fields back type) :
    Leads properties (front ++ back) type := by
  generalize hobject : PropertyType.object fields = outer at h
  induction h with
  | property hmem => exact .field (hobject ▸ hmem) hback
  | field hmem _ ih => exact .field hmem (ih hobject)

/-- Names go on nowhere but inside an object. -/
theorem of_append (h : Leads properties (front ++ back) type) (hfront : front ≠ []) (hback : back ≠ []) :
    ∃ fields, Leads properties front (.object fields) ∧ Leads fields back type := by
  induction front generalizing properties with
  | nil => exact absurd rfl hfront
  | cons name front ih =>
    rw [List.cons_append] at h
    generalize hnames : front ++ back = names at h
    cases h with
    | property _ => exact absurd (List.append_eq_nil_iff.mp hnames).2 hback
    | field hmem hfield =>
      by_cases hnil : front = []
      · subst hnil
        rw [List.nil_append] at hnames
        exact ⟨_, .property hmem, hnames ▸ hfield⟩
      · obtain ⟨fields, hlead, hrest⟩ := ih (hnames ▸ hfield) hnil
        exact ⟨fields, .field hmem hlead, hrest⟩

end Leads

theorem not_leads_nil : ¬ Leads [] names type := by
  intro h
  obtain ⟨_, _, _, -, hmem⟩ := h.exists_head
  cases hmem

/-- Names lead to a property through the first declaration or through another one. -/
theorem leads_cons_iff {name : String} {outer : PropertyType} :
    Leads ((name, outer) :: properties) names type ↔ names = [name] ∧ type = outer ∨
      (∃ more, names = name :: more ∧ Leads outer.fields more type) ∨ Leads properties names type := by
  constructor
  · intro h
    cases h with
    | property h =>
      rcases List.mem_cons.mp h with heq | h
      · cases heq
        exact .inl ⟨rfl, rfl⟩
      · exact .inr (.inr (.property h))
    | field h hfield =>
      rcases List.mem_cons.mp h with heq | h
      · cases heq
        exact .inr (.inl ⟨_, rfl, hfield⟩)
      · exact .inr (.inr (.field h hfield))
  · rintro (⟨rfl, rfl⟩ | ⟨more, rfl, hfield⟩ | h)
    · exact .property List.mem_cons_self
    · cases outer with
      | object fields => exact .field List.mem_cons_self hfield
      | string | int | float | bool | datetime | array _ => exact absurd hfield not_leads_nil
    · cases h with
      | property h => exact .property (List.mem_cons_of_mem _ h)
      | field h hfield => exact .field (List.mem_cons_of_mem _ h) hfield

/-! ## One declaration for each name -/

/-- Nowhere are two declarations of one name beside each other, as in maps from names to types. -/
structure Distinct (properties : List (String × PropertyType)) : Prop where
  top : (properties.map (·.1)).Nodup
  inside : ∀ {names type}, Leads properties names type → (type.fields.map (·.1)).Nodup

theorem Distinct.inner {name : String} (h : Distinct properties)
    (hmem : (name, .object fields) ∈ properties) : Distinct fields where
  top := h.inside (.property hmem)
  inside hfield := h.inside (.field hmem hfield)

theorem Distinct.eq_of_mem {name : String} (h : Distinct properties) (hmem : (name, type) ∈ properties)
    (hother : (name, other) ∈ properties) : type = other := by
  have heq := List.inj_on_of_nodup_map h.top hmem hother rfl
  exact congrArg Prod.snd heq

/-- Then names lead to one type. -/
theorem Leads.unique (h : Leads properties names type) (hother : Leads properties names other)
    (hdistinct : Distinct properties) : type = other := by
  induction h with
  | property hmem =>
    cases hother with
    | property hmem' => exact hdistinct.eq_of_mem hmem hmem'
    | field _ hfield => exact absurd rfl hfield.ne_nil
  | field hmem hfield ih =>
    cases hother with
    | property _ => exact absurd rfl hfield.ne_nil
    | field hmem' hfield' =>
      cases hdistinct.eq_of_mem hmem hmem'
      exact ih hfield' (hdistinct.inner hmem)

/-! ## Building a table -/

/-- Induction on declarations: on the fields of the first one and on the others. -/
theorem declarations_induction {P : List (String × PropertyType) → Prop} (nil : P [])
    (cons : ∀ name type rest, P type.fields → P rest → P ((name, type) :: rest)) :
    ∀ properties, P properties
  | [] => nil
  | (name, .object fields) :: rest =>
    cons name (.object fields) rest (declarations_induction nil cons fields)
      (declarations_induction nil cons rest)
  | (name, .string) :: rest => cons name .string rest nil (declarations_induction nil cons rest)
  | (name, .int) :: rest => cons name .int rest nil (declarations_induction nil cons rest)
  | (name, .float) :: rest => cons name .float rest nil (declarations_induction nil cons rest)
  | (name, .bool) :: rest => cons name .bool rest nil (declarations_induction nil cons rest)
  | (name, .datetime) :: rest => cons name .datetime rest nil (declarations_induction nil cons rest)
  | (name, .array element) :: rest =>
    cons name (.array element) rest nil (declarations_induction nil cons rest)

mutual

/-- The paths that a declaration below `parents` puts into a table, in their order. -/
def pathsOf (parents : List String) (name : String) : PropertyType → List PropertyPath
  | .object fields => paths (parents ++ [name]) fields ++ [⟨parents ++ [name], .object fields⟩]
  | type => [⟨parents ++ [name], type⟩]

/-- The paths that several declarations below `parents` put into a table, in their order. -/
def paths (parents : List String) : List (String × PropertyType) → List PropertyPath
  | [] => []
  | (name, type) :: rest => pathsOf parents name type ++ paths parents rest

end

theorem paths_cons (parents : List String) (name : String) (type : PropertyType)
    (rest : List (String × PropertyType)) :
    paths parents ((name, type) :: rest)
      = paths (parents ++ [name]) type.fields ++ ⟨parents ++ [name], type⟩ :: paths parents rest := by
  rw [paths, List.append_cons]
  cases type <;> rfl

/-- The paths are those that names lead to. -/
theorem mem_paths_iff : path ∈ paths parents properties ↔
    ∃ names, path.segments = parents ++ names ∧ Leads properties names path.type := by
  induction properties using declarations_induction generalizing parents with
  | nil => exact iff_of_false List.not_mem_nil fun ⟨_, _, hleads⟩ => not_leads_nil hleads
  | cons name type rest ihfields ihrest =>
    rw [paths_cons, List.mem_append, List.mem_cons, ihfields, ihrest]
    constructor
    · rintro (⟨more, hsegments, hleads⟩ | rfl | ⟨names, hsegments, hleads⟩)
      · rw [List.append_assoc] at hsegments
        exact ⟨_, hsegments, leads_cons_iff.mpr (.inr (.inl ⟨more, rfl, hleads⟩))⟩
      · exact ⟨[name], rfl, leads_cons_iff.mpr (.inl ⟨rfl, rfl⟩)⟩
      · exact ⟨names, hsegments, leads_cons_iff.mpr (.inr (.inr hleads))⟩
    · rintro ⟨names, hsegments, hleads⟩
      obtain ⟨segments, pathType⟩ := path
      dsimp only at hsegments hleads ⊢
      rcases leads_cons_iff.mp hleads with ⟨rfl, rfl⟩ | ⟨more, rfl, hmore⟩ | hrest
      · exact .inr (.inl (by rw [hsegments]))
      · exact .inl ⟨more, by rw [hsegments, List.append_assoc, List.singleton_append], hmore⟩
      · exact .inr (.inr ⟨names, hsegments, hrest⟩)

/-- What holds of all names that lead anywhere holds of all paths. -/
theorem forall_leads_iff {P : List String → PropertyType → Prop} :
    (∀ names type, Leads properties names type → P names type) ↔
      ∀ path ∈ paths [] properties, P path.segments path.type := by
  constructor
  · intro h path hpath
    obtain ⟨names, hsegments, hleads⟩ := mem_paths_iff.mp hpath
    rw [List.nil_append] at hsegments
    exact hsegments ▸ h names path.type hleads
  · intro h names type hleads
    exact h ⟨names, type⟩ (mem_paths_iff.mpr ⟨names, rfl, hleads⟩)

theorem distinct_iff : Distinct properties ↔ (properties.map (·.1)).Nodup ∧
    ∀ path ∈ paths [] properties, (path.type.fields.map (·.1)).Nodup := by
  rw [← forall_leads_iff (P := fun _ type => (type.fields.map (·.1)).Nodup)]
  exact ⟨fun h => ⟨h.top, fun _ _ hleads => h.inside hleads⟩, fun ⟨top, inside⟩ => ⟨top, inside _ _⟩⟩

instance : DecidablePred Distinct := fun _ => decidable_of_iff _ distinct_iff.symm

/-- Declarations put their paths into a table one after the other. -/
theorem addAll_eq_foldl (parents : List String) (table : PropertyTable) :
    addAll parents table properties
      = (paths parents properties).foldl (fun table path => table.insert path.dotted path) table := by
  induction properties using declarations_induction generalizing parents table with
  | nil => rfl
  | cons name type rest ihfields ihrest =>
    have hadd : add parents table name type
        = (addAll (parents ++ [name]) table type.fields).insert
            (PropertyPath.dotted ⟨parents ++ [name], type⟩) ⟨parents ++ [name], type⟩ := by
      cases type <;> rfl
    rw [addAll, hadd, ihfields, ihrest, paths_cons, List.foldl_append, List.foldl_cons]

/-- **A table holds the declared paths, each under its dotted text.** Of paths with one dotted text it
holds the last one. -/
theorem build_eq_ofList (properties : List (String × PropertyType)) :
    build properties = Entries.ofList ((paths [] properties).map fun path => (path.dotted, path)) := by
  rw [build, addAll_eq_foldl, Entries.ofList, List.foldl_map]

/-! ## What a table holds -/

theorem leads_of_resolve?_build {dotted : String} (h : (build properties).resolve? dotted = some path) :
    Leads properties path.segments path.type ∧ path.dotted = dotted := by
  rw [resolve?, build_eq_ofList, Entries.lookup_ofList] at h
  obtain ⟨found, hfound, heq⟩ :=
    List.mem_map.mp (List.mem_reverse.mp (Entries.mem_of_lookup_eq_some h))
  obtain ⟨rfl, rfl⟩ := Prod.mk.inj heq
  exact ⟨forall_leads_iff.mp (fun _ _ hleads => hleads) found hfound, rfl⟩

theorem isSome_resolve?_build (h : Leads properties names type) :
    ((build properties).resolve? (".".intercalate names)).isSome := by
  rw [resolve?, build_eq_ofList, Entries.lookup_ofList, List.lookup_isSome_iff]
  have hmem : ⟨names, type⟩ ∈ paths [] properties := mem_paths_iff.mpr ⟨names, rfl, h⟩
  refine ⟨_, List.mem_reverse.mpr (List.mem_map_of_mem hmem), ?_⟩
  exact beq_self_eq_true _

theorem ascending_build (properties : List (String × PropertyType)) :
    (build properties).Ascending := by
  rw [build_eq_ofList]
  exact Entries.ascending_ofList _

/-- Every property is in the table under its own path. -/
theorem dotted_of_mem_build {entry : String × PropertyPath} (h : entry ∈ build properties) :
    (build properties).resolve? entry.1 = some entry.2 ∧ entry.2.dotted = entry.1 := by
  have hfound : (build properties).resolve? entry.1 = some entry.2 :=
    (ascending_build properties).lookup_of_mem h
  exact ⟨hfound, (leads_of_resolve?_build hfound).2⟩

theorem pairwise_dotted_build (properties : List (String × PropertyType)) :
    ((build properties).map (·.2.dotted)).Pairwise (· < ·) := by
  have hkeys : (build properties).map (·.2.dotted) = (build properties).map (·.1) :=
    List.map_congr_left fun entry hentry => (dotted_of_mem_build hentry).2
  rw [hkeys]
  exact List.pairwise_map.mpr (ascending_build properties)

/-- **A table is exactly the declared paths.** It resolves the dotted texts of these paths and no others,
and gives such a path with the type that is declared at its end. An object and whatever is declared inside
it, at any depth, are found; no path goes on inside an array. The paths stand in the order of their dotted
texts, each of which occurs once. -/
theorem build_holds_declared (properties : List (String × PropertyType)) :
    (∀ dotted, ((build properties).resolve? dotted).isSome ↔
      ∃ names type, Leads properties names type ∧ ".".intercalate names = dotted) ∧
    (∀ dotted path, (build properties).resolve? dotted = some path →
      path.dotted = dotted ∧ Leads properties path.segments path.type ∧
        (Distinct properties → ∀ type, Leads properties path.segments type → type = path.type)) ∧
    (∀ names fields, Leads properties names (.object fields) →
      ((build properties).resolve? (".".intercalate names)).isSome ∧
        ∀ more type, Leads fields more type →
          ((build properties).resolve? (".".intercalate (names ++ more))).isSome) ∧
    (∀ front back type, Leads properties (front ++ back) type → front ≠ [] → back ≠ [] →
      (∃ fields, Leads properties front (.object fields) ∧ Leads fields back type) ∧
        (Distinct properties → ∀ element, ¬ Leads properties front (.array element))) ∧
    ((build properties).map (·.2.dotted)).Pairwise (· < ·) ∧
    ∀ path, path ∈ (build properties).map (·.2) ↔
      (build properties).resolve? path.dotted = some path := by
  refine ⟨?_, ?_, ?_, ?_, pairwise_dotted_build properties, ?_⟩
  · intro dotted
    constructor
    · intro h
      obtain ⟨path, hpath⟩ := Option.isSome_iff_exists.mp h
      obtain ⟨hleads, hdotted⟩ := leads_of_resolve?_build hpath
      exact ⟨path.segments, path.type, hleads, hdotted⟩
    · rintro ⟨names, type, hleads, rfl⟩
      exact isSome_resolve?_build hleads
  · intro dotted path hpath
    obtain ⟨hleads, hdotted⟩ := leads_of_resolve?_build hpath
    exact ⟨hdotted, hleads, fun hdistinct _ hother => hother.unique hleads hdistinct⟩
  · intro names fields hobject
    exact ⟨isSome_resolve?_build hobject,
      fun _ _ hinside => isSome_resolve?_build (hobject.append hinside)⟩
  · intro front back type hleads hfront hback
    obtain ⟨fields, hobject, hinside⟩ := hleads.of_append hfront hback
    refine ⟨⟨fields, hobject, hinside⟩, fun hdistinct element harray => ?_⟩
    cases hobject.unique harray hdistinct
  · intro path
    constructor
    · intro h
      obtain ⟨entry, hentry, rfl⟩ := List.mem_map.mp h
      obtain ⟨hfound, hdotted⟩ := dotted_of_mem_build hentry
      rw [hdotted, hfound]
    · intro h
      exact List.mem_map_of_mem (Entries.mem_of_lookup_eq_some h)

/-- A name with a dot in it can have the text of a path through an object and be found in its place; what
is inside an array is not declared. -/
theorem build_holds_declared_places :
    let properties : List (String × PropertyType) :=
      [("address", .object [("city", .string), ("geo", .object [("lat", .float)])]),
        ("address.city", .int), ("tags", .array (.object [("label", .string)]))]
    Distinct properties ∧
      (build properties).resolve? "address.city" = some ⟨["address.city"], .int⟩ ∧
      (∀ type, Leads properties ["address.city"] type → type = .int) ∧
      Leads properties ["tags"] (.array (.object [("label", .string)])) ∧
      ∀ type, ¬ Leads properties ["tags", "label"] type := by
  intro properties
  obtain ⟨-, hfound, -, hthrough, -, -⟩ := build_holds_declared properties
  have hdistinct : Distinct properties := by decide
  have hcity : (build properties).resolve? "address.city" = some ⟨["address.city"], .int⟩ := by
    with_unfolding_all rfl
  have htags : Leads properties ["tags"] (.array (.object [("label", .string)])) :=
    .property (.tail _ (.tail _ (.head _)))
  refine ⟨hdistinct, hcity, (hfound _ _ hcity).2.2 hdistinct, htags, fun type hlabel => ?_⟩
  exact (hthrough ["tags"] ["label"] type hlabel (by decide) (by decide)).2 hdistinct _ htags

end PropertyTable

end DerivedQuery
