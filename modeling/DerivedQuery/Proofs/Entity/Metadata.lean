import DerivedQuery.Entity.Metadata
import DerivedQuery.Proofs.Entity.Declarations
import DerivedQuery.Proofs.Failure

/-!
# Declared properties

Every property is in its table under its own path (`PropertyTable.keyed_build`), and the first name of its
path is itself declared (`PropertyTable.rooted_build`).

The identifier of an entity is found by its name, which is all there is of its path
(`EntityMetadata.resolve?_idProperty`).
-/

namespace DerivedQuery

namespace PropertyTable

/-- Every property is in the table under its own path, which has a name in it. -/
def Keyed (table : PropertyTable) : Prop :=
  ∀ entry ∈ table, entry.2.dotted = entry.1 ∧ entry.2.segments ≠ []

theorem keyed_build (properties : List (String × PropertyType)) : (build properties).Keyed := by
  intro entry hentry
  obtain ⟨hfound, hdotted⟩ := dotted_of_mem_build hentry
  exact ⟨hdotted, (leads_of_resolve?_build hfound).1.ne_nil⟩

/-- The first name of every property is declared. -/
def Rooted (table : PropertyTable) : Prop :=
  ∀ entry ∈ table, ∀ first ∈ entry.2.segments.head?, (table.resolve? first).isSome

theorem rooted_build (properties : List (String × PropertyType)) : (build properties).Rooted := by
  intro entry hentry first hfirst
  obtain ⟨hfound, -⟩ := dotted_of_mem_build hentry
  obtain ⟨name, rest, type, hsegments, hmem⟩ := (leads_of_resolve?_build hfound).1.exists_head
  rw [hsegments] at hfirst
  cases hfirst
  have hresolves := isSome_resolve?_build (.property hmem)
  rwa [String.intercalate_singleton] at hresolves

end PropertyTable

namespace EntityMetadata

variable {description : EntityDescription} {m : EntityMetadata}

theorem typeName_of_ofDescription (h : ofDescription description = .ok m) :
    m.typeName = description.name := by
  unfold ofDescription at h
  obtain ⟨idProperty, -, h⟩ := bind_eq_ok_iff.mp h
  obtain ⟨-, h⟩ := ite_error_eq_ok_iff.mp h
  split at h
  · cases h
    rfl
  · obtain ⟨partitionKey, -, ⟨⟩⟩ := bind_eq_ok_iff.mp h
    rfl

theorem properties_of_ofDescription (h : ofDescription description = .ok m) :
    m.properties = PropertyTable.build description.properties := by
  unfold ofDescription at h
  obtain ⟨idProperty, -, h⟩ := bind_eq_ok_iff.mp h
  obtain ⟨-, h⟩ := ite_error_eq_ok_iff.mp h
  split at h
  · cases h
    rfl
  · obtain ⟨partitionKey, -, ⟨⟩⟩ := bind_eq_ok_iff.mp h
    rfl

/-- The identifier is a property at the top level, which is found by its name. -/
theorem resolve?_idProperty (h : ofDescription description = .ok m) :
    m.idProperty.segments = [m.idProperty.leaf] ∧
      m.properties.resolve? m.idProperty.leaf = some m.idProperty := by
  have htable := properties_of_ofDescription h
  unfold ofDescription at h
  obtain ⟨idProperty, hresolve, h⟩ := bind_eq_ok_iff.mp h
  obtain ⟨hnested, h⟩ := ite_error_eq_ok_iff.mp h
  have hid : m.idProperty = idProperty := by
    split at h
    · cases h
      rfl
    · obtain ⟨_, -, ⟨⟩⟩ := bind_eq_ok_iff.mp h
      rfl
  rw [hid, htable]
  dsimp only at hresolve
  split at hresolve
  · next path hfound =>
    cases hresolve
    obtain ⟨hdotted, hne⟩ := PropertyTable.keyed_build _ _ (Entries.mem_of_lookup_eq_some hfound)
    dsimp only at hdotted hne
    obtain ⟨first, rest, hsegments⟩ := List.exists_cons_of_ne_nil hne
    -- A path that is not nested is its only name, so it is in the table under this name.
    cases rest with
    | cons second rest =>
      rw [PropertyPath.isNested, hsegments] at hnested
      simp at hnested
    | nil =>
      rw [PropertyPath.dotted, hsegments, String.intercalate_singleton] at hdotted
      rw [PropertyPath.leaf, hsegments]
      exact ⟨rfl, hdotted ▸ hfound⟩
  · cases hresolve

theorem dotted_idProperty (h : ofDescription description = .ok m) :
    m.idProperty.dotted = m.idProperty.leaf := by
  rw [PropertyPath.dotted, (resolve?_idProperty h).1, String.intercalate_singleton]

end EntityMetadata

end DerivedQuery
