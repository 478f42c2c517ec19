import DerivedQuery.Plan.Partition
import DerivedQuery.Proofs.Document.Conversion
import DerivedQuery.Proofs.Entity.Metadata
import DerivedQuery.Proofs.Text.Split

/-!
# The field of a property

Whatever asks for a property of a stored entity looks its field up, whose dotted path is cut into segments
again. That leads to the value of the property (`EntityMetadata.Findable.field?_eq`) for the identifier,
and for all properties whose names have no dots and that do not lie inside a renamed identifier.

For any other property there is an entity that has it while its document lacks the field: the names one
inside the other (`Document.chain`) are not deep enough for a path that a dot makes longer, and the
document of a renamed identifier has nothing under its old name (`EntityMetadata.findable_iff`).
-/

namespace DerivedQuery

namespace Document

/-! ## Chains -/

/-- Objects of one member each, one inside the other. -/
def chain : List String → Document
  | [] => .null
  | name :: rest => .object [(name, chain rest)]

theorem follow_chain (names : List String) : (chain names).follow names = some .null := by
  induction names with
  | nil => rfl
  | cons name rest ih => simpa [chain, follow, Json.get?] using ih

theorem follow_chain_of_ne {first name : String} (hne : first ≠ name) (rest path : List String) :
    (chain (name :: rest)).follow (first :: path) = none := by
  simp [chain, follow, Json.get?, List.lookup_cons, beq_false_of_ne hne]

/-- No path leads deeper than a chain is. -/
theorem follow_chain_of_length_lt {names path : List String} (h : names.length < path.length) :
    (chain names).follow path = none := by
  induction names generalizing path with
  | nil =>
    cases path with
    | nil => cases h
    | cons first path => rfl
  | cons name rest ih =>
    cases path with
    | nil => cases h
    | cons first path =>
      by_cases hname : first = name
      · have hrest := ih (Nat.lt_of_succ_lt_succ h)
        simpa [chain, follow, Json.get?, hname] using hrest
      · exact follow_chain_of_ne hname rest path

/-! ## Fields of documents -/

theorem field?_idField (document : Document) : document.field? idField = document.get? idField := by
  have hsegments : Text.segments idField = [idField] := by decide
  rw [field?, hsegments]
  exact Option.bind_fun_some _

theorem rename_singleton (source target name : String) (value : Json) :
    rename source target [(name, value)] = [(if name = source then target else name, value)] := by
  by_cases hsame : source = target
  · simp [hsame, rename_self]
  · by_cases hname : name = source
    · simp [rename, hsame, hname, Entries.erase, Entries.insert]
    · simp [rename, hsame, hname, List.lookup_cons, beq_false_of_ne (Ne.symm hname)]

end Document

namespace EntityMetadata

open Document

/-- The value of the property can be found in the document of any entity: it is the identifier, or a
property outside of a renamed identifier whose names have no dots. -/
def Findable (m : EntityMetadata) (path : PropertyPath) : Prop :=
  m.isId path ∨ (∀ name ∈ path.segments, '.' ∉ name.toList) ∧
    (m.idProperty.leaf = idField ∨ path.segments.head? ≠ some m.idProperty.leaf)

variable {description : EntityDescription} {m : EntityMetadata} {dotted : String}
  {path : PropertyPath} {members : List (String × Json)}

/-- The path of a declared property starts with a declared name. -/
theorem exists_first_of_resolve? (hm : ofDescription description = .ok m)
    (hpath : m.properties.resolve? dotted = some path) :
    ∃ first rest, path.segments = first :: rest ∧ (m.properties.resolve? first).isSome := by
  rw [properties_of_ofDescription hm] at hpath ⊢
  have hmem := Entries.mem_of_lookup_eq_some hpath
  obtain ⟨first, rest, hsegments⟩ :=
    List.exists_cons_of_ne_nil (PropertyTable.keyed_build _ _ hmem).2
  refine ⟨first, rest, hsegments, PropertyTable.rooted_build _ _ hmem first ?_⟩
  rw [hsegments]
  rfl

/-- Beside the identifier, members stay where they are. -/
theorem lookup_document (members : List (String × Json))
    (hid : m.idProperty.leaf = idField ∨ m.properties.resolve? idField = none) {name : String}
    (hname : m.idProperty.leaf = idField ∨ name ≠ m.idProperty.leaf)
    (hdeclared : (m.properties.resolve? name).isSome) :
    (rename m.idProperty.leaf idField members).lookup name = members.lookup name := by
  by_cases hleaf : m.idProperty.leaf = idField
  · rw [hleaf, rename_self]
  · have hfield : name ≠ idField := by
      rintro rfl
      rw [hid.resolve_left hleaf] at hdeclared
      cases hdeclared
    rw [lookup_rename hleaf, if_neg hfield, if_neg (hname.resolve_left hleaf)]

/-- The identifier is found in the field `id`. -/
theorem Describes.lookup_idField (h : m.Describes members)
    (hid : m.idProperty.leaf = idField ∨ m.properties.resolve? idField = none) :
    (rename m.idProperty.leaf idField members).lookup idField
      = members.lookup m.idProperty.leaf := by
  by_cases hleaf : m.idProperty.leaf = idField
  · rw [hleaf, rename_self]
  · rw [lookup_rename hleaf, if_pos rfl, h.lookup_eq_none (hid.resolve_left hleaf), Option.or_none]

/-- **The field of a property that can be found has its value.** -/
theorem Findable.field?_eq (h : m.Findable path) (hm : ofDescription description = .ok m)
    (hid : m.idProperty.leaf = idField ∨ m.properties.resolve? idField = none)
    (hpath : m.properties.resolve? dotted = some path) (hmembers : m.Describes members) :
    field? (.object (rename m.idProperty.leaf idField members)) (m.documentField path)
      = follow (.object members) path.segments := by
  rw [documentField]
  by_cases hpathId : m.isId path
  · have hsegments : path.segments = [m.idProperty.leaf] := by
      rw [← (resolve?_idProperty hm).1]
      exact beq_iff_eq.mp hpathId
    rw [if_pos hpathId, field?_idField, hsegments]
    exact (hmembers.lookup_idField hid).trans (Option.bind_fun_some _).symm
  · obtain ⟨hdots, houtside⟩ := h.resolve_left hpathId
    obtain ⟨first, rest, hsegments, hdeclared⟩ := exists_first_of_resolve? hm hpath
    rw [hsegments] at hdots houtside
    have hfirst : m.idProperty.leaf = idField ∨ first ≠ m.idProperty.leaf :=
      houtside.imp_right fun hne heq => hne (congrArg some heq)
    rw [if_neg hpathId, field?, PropertyPath.dotted, hsegments,
      Text.segments_intercalate (List.cons_ne_nil first rest) hdots]
    exact congrArg (Option.bind · (follow · rest))
      (lookup_document members hid hfirst hdeclared)

/-- A property that cannot be found has an entity whose document lacks its field. -/
theorem exists_lacking_of_not_findable (hm : ofDescription description = .ok m)
    (hpath : m.properties.resolve? dotted = some path) (h : ¬m.Findable path) :
    ∃ members, m.Describes members ∧ follow (.object members) path.segments = some .null ∧
      field? (.object (rename m.idProperty.leaf idField members)) (m.documentField path) = none := by
  obtain ⟨hpathId, hplace⟩ := not_or.mp h
  obtain ⟨first, rest, hsegments, hdeclared⟩ := exists_first_of_resolve? hm hpath
  refine ⟨[(first, chain rest)], ⟨List.pairwise_singleton _ _, List.forall_mem_singleton.mpr hdeclared⟩,
    ?_, ?_⟩
  · rw [hsegments]
    exact follow_chain (first :: rest)
  · rw [documentField, if_neg hpathId, rename_singleton, field?, PropertyPath.dotted]
    by_cases hdots : ∀ name ∈ path.segments, '.' ∉ name.toList
    · -- The document has the identifier alone, and that not under its own name.
      obtain ⟨hleaf, hhead⟩ := not_or.mp (not_and.mp hplace hdots)
      rw [hsegments] at hdots hhead
      have hfirst : first = m.idProperty.leaf := Option.some.inj (not_not.mp hhead)
      rw [hsegments, Text.segments_intercalate (List.cons_ne_nil first rest) hdots, if_pos hfirst]
      exact follow_chain_of_ne (hfirst ▸ hleaf) rest rest
    · push Not at hdots
      obtain ⟨name, hname, hdot⟩ := hdots
      have hlength := Text.lt_length_segments_intercalate hname hdot
      rw [hsegments] at hlength ⊢
      -- The document is a chain as long as that of the names, whether its first name is moved or not.
      let moved := if first = m.idProperty.leaf then idField else first
      show (chain (moved :: rest)).follow _ = none
      exact follow_chain_of_length_lt hlength

/-- **Queries read the field that was written exactly for the properties that can be found.** These are
the identifier and all properties whose names have no dots and that do not lie inside a renamed
identifier; for them the field of the document has what the path leads to in the entity, whatever the
entity has there. No property but the identifier may be called `id`. -/
theorem findable_iff (hm : ofDescription description = .ok m)
    (hid : m.idProperty.leaf = idField ∨ m.properties.resolve? idField = none)
    (hpath : m.properties.resolve? dotted = some path) :
    (∀ members, m.Describes members → ∃ document, ofEntity m (.object members) = .ok document ∧
      document.field? (m.documentField path) = follow (.object members) path.segments) ↔
    m.Findable path := by
  constructor
  · intro hall
    by_contra h
    obtain ⟨members, hmembers, hfollow, hfield⟩ := exists_lacking_of_not_findable hm hpath h
    obtain ⟨document, hdocument, hsame⟩ := hall members hmembers
    cases hdocument
    rw [hfield, hfollow] at hsame
    cases hsame
  · intro h members hmembers
    exact ⟨_, rfl, h.field?_eq hm hid hpath hmembers⟩

end EntityMetadata

namespace Parcel

/-- Parcels, whose identifiers are objects and have a name of their own. -/
def description : EntityDescription where
  name := "Parcel"
  id := "key"
  properties := [("key", .object [("code", .string)]), ("place", .object [("city", .string)])]

def metadata : EntityMetadata where
  typeName := "Parcel"
  collection := "Parcel"
  idProperty := ⟨["key"], .object [("code", .string)]⟩
  partitionKey := none
  properties := PropertyTable.build description.properties

def members : List (String × Json) :=
  [("key", .object [("code", .string "k")]), ("place", .object [("city", .string "Oslo")])]

theorem describes : metadata.Describes members := ⟨by decide, by decide⟩

end Parcel

namespace Sample

/-- Samples, kept by a property whose name has a dot in it. -/
def description : EntityDescription where
  name := "Sample"
  partitionKey := some "unit.name"
  properties := [("id", .string), ("unit.name", .string)]

def metadata : EntityMetadata where
  typeName := "Sample"
  collection := "Sample"
  idProperty := ⟨["id"], .string⟩
  partitionKey := some ⟨["unit.name"], .string⟩
  properties := PropertyTable.build description.properties

def members : List (String × Json) := [("id", .string "1"), ("unit.name", .string "kg")]

end Sample

namespace EntityMetadata

open Document

theorem findable_iff_parcels : ∃ document,
    ofEntity Parcel.metadata (.object Parcel.members) = .ok document ∧
      document.field? (Parcel.metadata.documentField ⟨["place", "city"], .string⟩)
        = some (.string "Oslo") := by
  have hm : ofDescription Parcel.description = .ok Parcel.metadata := rfl
  have hpath : Parcel.metadata.properties.resolve? "place.city" = some ⟨["place", "city"], .string⟩ :=
    rfl
  exact (findable_iff hm (.inr (rfl)) hpath).mpr (.inr ⟨by decide, .inr (by decide)⟩)
    Parcel.members Parcel.describes

/-- A name with a dot in it is taken for two, and what is inside the identifier of a parcel is looked for
where the identifier is no longer. -/
theorem not_findable_samples_parcels :
    ofDescription Sample.description = .ok Sample.metadata ∧
    Sample.metadata.properties.resolve? "unit.name" = some ⟨["unit.name"], .string⟩ ∧
    Sample.metadata.Describes Sample.members ∧
    follow (.object Sample.members) ["unit.name"] = some (.string "kg") ∧
    (∃ document, ofEntity Sample.metadata (.object Sample.members) = .ok document ∧
      document.field? (Sample.metadata.documentField ⟨["unit.name"], .string⟩) = none ∧
      Partition.ofDocument Sample.metadata document = .error (.partitionKeyRequired "Sample")) ∧
    ofDescription Parcel.description = .ok Parcel.metadata ∧
    Parcel.metadata.properties.resolve? "key.code" = some ⟨["key", "code"], .string⟩ ∧
    follow (.object Parcel.members) ["key", "code"] = some (.string "k") ∧
    ∃ document, ofEntity Parcel.metadata (.object Parcel.members) = .ok document ∧
      document.field? (Parcel.metadata.documentField ⟨["key", "code"], .string⟩) = none := by
  exact ⟨rfl, rfl, ⟨by decide, by decide⟩, rfl, ⟨_, rfl, rfl, rfl⟩, rfl, rfl, rfl, _, rfl, rfl⟩

end EntityMetadata

end DerivedQuery
