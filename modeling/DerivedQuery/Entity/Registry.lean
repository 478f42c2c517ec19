import DerivedQuery.Entity.Metadata

/-!
# Metadata registries

The metadata of the entities that have been asked for, one for each key. A description is resolved when
its entity is first asked for and never looked at again; a description that does not resolve leaves no
trace.
-/

namespace DerivedQuery

/-- Resolved metadata by key. -/
structure MetadataRegistry (κ : Type) where
  resolved : List (κ × EntityMetadata) := []

namespace MetadataRegistry

variable {κ : Type} [DecidableEq κ]

/-- The metadata of an entity, resolved now if it has not been before. -/
def metadata (registry : MetadataRegistry κ) (key : κ) (description : EntityDescription) :
    Except QueryError EntityMetadata × MetadataRegistry κ :=
  match registry.resolved.lookup key with
  | some metadata => (.ok metadata, registry)
  | none =>
    match EntityMetadata.ofDescription description with
    | .ok metadata => (.ok metadata, ⟨(key, metadata) :: registry.resolved⟩)
    | .error error => (.error error, registry)

/-- The entity's metadata has been resolved. -/
def isRegistered (registry : MetadataRegistry κ) (key : κ) : Bool :=
  (registry.resolved.lookup key).isSome

omit [DecidableEq κ] in
/-- How many entities have been resolved. -/
def size (registry : MetadataRegistry κ) : Nat := registry.resolved.length

end MetadataRegistry

end DerivedQuery
