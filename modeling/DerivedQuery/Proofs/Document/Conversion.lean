import Mathlib.Data.String.Basic
import DerivedQuery.Document.Conversion
import DerivedQuery.Proofs.Collection.Entries
import DerivedQuery.Proofs.Failure

/-!
# There and back

An entity's identifier is moved to the document field `id` and moved back from there. A member that is
moved to a name takes the place of what stood there, so moving it back undoes it exactly if nothing did
(`Document.rename_rename_eq_iff`).

No declared name is that of a system field, so on the way back a document only has its identifier moved
(`Document.Records.toEntity`), and is the document of what it comes back as
(`Document.Records.ofEntity_toEntity`). An entity comes back as it was unless it has a member `id` that is
not its identifier (`Document.restored_iff`).
-/

namespace DerivedQuery

namespace EntityMetadata

/-- The members of an object of the entity, in order of their names, which are all declared. -/
structure Describes (m : EntityMetadata) (members : List (String × Json)) : Prop where
  ascending : Entries.Ascending members
  declared : ∀ entry ∈ members, (m.properties.resolve? entry.1).isSome

theorem Describes.lookup_eq_none {m : EntityMetadata} {members : List (String × Json)}
    (h : m.Describes members) {name : String} (hname : m.properties.resolve? name = none) :
    members.lookup name = none := by
  refine List.lookup_eq_none_iff.mpr fun entry hentry => ?_
  rw [bne_iff_ne]
  intro heq
  have hdeclared := h.declared entry hentry
  rw [← heq, hname] at hdeclared
  cases hdeclared

end EntityMetadata

namespace Document

/-! ## Moving members -/

section Rename

variable {source target : String} {members : List (String × Json)}

theorem rename_self (name : String) (members : List (String × Json)) :
    rename name name members = members := if_pos rfl

/-- What is found behind a move: the member that was moved, and nothing where it was. -/
theorem lookup_rename (hne : source ≠ target) (members : List (String × Json)) (name : String) :
    (rename source target members).lookup name =
      if name = target then (members.lookup source).or (members.lookup target)
      else if name = source then none else members.lookup name := by
  rw [rename, if_neg hne]
  cases hsource : members.lookup source with
  | none =>
    by_cases htarget : name = target
    · simp [htarget]
    · by_cases hname : name = source
      · simp [hname, hne, hsource]
      · simp [htarget, hname]
  | some value =>
    dsimp only
    rw [Entries.lookup_insert]
    by_cases htarget : name = target
    · simp [htarget]
    · by_cases hname : name = source
      · simp [hname, hne, Entries.lookup_erase_self]
      · simp [htarget, hname, Entries.lookup_erase_of_ne hname]

theorem mem_of_mem_rename {entry : String × Json} (h : entry ∈ rename source target members) :
    entry.1 = target ∨ entry ∈ members := by
  rw [rename] at h
  split at h
  · exact .inr h
  · split at h
    · rcases Entries.eq_or_mem_of_mem_insert h with rfl | hrest
      · exact .inl rfl
      · exact .inr (List.mem_of_mem_filter hrest)
    · exact .inr h

theorem ascending_rename (source target : String) (h : Entries.Ascending members) :
    Entries.Ascending (rename source target members) := by
  rw [rename]
  split
  · exact h
  · split
    · exact (h.erase source).insert target _
    · exact h

/-- There and back, a member stays, but what stood where it went is taken for it or lost. -/
theorem lookup_rename_rename (hne : source ≠ target) (members : List (String × Json))
    (name : String) :
    (rename target source (rename source target members)).lookup name =
      if name = source then (members.lookup source).or (members.lookup target)
      else if name = target then none else members.lookup name := by
  rw [lookup_rename hne.symm]
  by_cases hsource : name = source
  · simp [hsource, lookup_rename hne, hne]
  · by_cases htarget : name = target
    · simp [htarget, hne.symm]
    · simp [hsource, htarget, lookup_rename hne]

/-- **Moving a member there and back changes nothing exactly if nothing stood where it went.** -/
theorem rename_rename_eq_iff (h : Entries.Ascending members) :
    rename target source (rename source target members) = members ↔
      source = target ∨ members.lookup target = none := by
  by_cases hne : source = target
  · simp [hne, rename_self]
  · rw [or_iff_right hne]
    constructor
    · intro hback
      rw [← hback, lookup_rename_rename hne, if_neg (Ne.symm hne), if_pos rfl]
    · intro hfree
      refine (ascending_rename target source (ascending_rename source target h)).ext h fun name => ?_
      rw [lookup_rename_rename hne]
      by_cases hsource : name = source
      · simp [hsource, hfree]
      · by_cases htarget : name = target
        · simp [htarget, Ne.symm hne, hfree]
        · simp [hsource, htarget]

end Rename

/-! ## Documents of an entity -/

section Conversion

variable {m : EntityMetadata} {members fields : List (String × Json)}

theorem isSystemField_of_declared {name : String} (h : (m.properties.resolve? name).isSome) :
    isSystemField m name = false := by
  rw [isSystemField, Option.isNone_eq_false_iff.mpr h, Bool.and_false]

theorem isSystemField_idField (m : EntityMetadata) : isSystemField m idField = false := by
  have hletter : (idField.toList.head? == some '_') = false := by decide
  rw [isSystemField, hletter, Bool.false_and]

/-- The fields of a document of the entity, in order of their names, which are `id` and declared ones. The
name of the identifier is not among them unless it is `id`. -/
structure Records (m : EntityMetadata) (fields : List (String × Json)) : Prop where
  ascending : Entries.Ascending fields
  declared : ∀ entry ∈ fields, entry.1 = idField ∨ (m.properties.resolve? entry.1).isSome
  moved : m.idProperty.leaf = idField ∨ fields.lookup m.idProperty.leaf = none

theorem records_ofEntity (h : m.Describes members) :
    Records m (rename m.idProperty.leaf idField members) where
  ascending := ascending_rename _ _ h.ascending
  declared entry hentry := (mem_of_mem_rename hentry).imp_right (h.declared entry)
  moved := by
    refine or_iff_not_imp_left.mpr fun hne => ?_
    rw [lookup_rename hne, if_neg hne, if_pos rfl]

/-- On the way back a document loses nothing and has its identifier moved. -/
theorem Records.toEntity (h : Records m fields) :
    toEntity m (.object fields) = .ok (.object (rename idField m.idProperty.leaf fields)) := by
  have hfilter : fields.filter (!isSystemField m ·.1) = fields := by
    refine List.filter_eq_self.mpr fun entry hentry => ?_
    rw [Bool.not_eq_true']
    rcases h.declared entry hentry with hid | hdeclared
    · rw [hid, isSystemField_idField]
    · exact isSystemField_of_declared hdeclared
  rw [Document.toEntity, hfilter]

/-- A document of the entity comes back from the entity that it stands for. -/
theorem Records.ofEntity_toEntity (h : Records m fields) :
    ofEntity m (.object (rename idField m.idProperty.leaf fields)) = .ok (.object fields) := by
  rw [ofEntity, (rename_rename_eq_iff h.ascending).mpr (h.moved.imp_left Eq.symm)]

end Conversion

/-- **An entity comes back from its document unless it has a member `id` that is not its identifier.** If
the identifier has a name of its own and `id` is declared beside it, there are such entities: the member
`id` is lost, and taken for the identifier where that is missing. -/
theorem restored_iff (m : EntityMetadata) :
    (∀ members, m.Describes members → ∃ document back,
      ofEntity m (.object members) = .ok document ∧ toEntity m document = .ok (.object back) ∧
      (back = members ↔ m.idProperty.leaf = idField ∨ members.lookup idField = none) ∧
      (m.idProperty.leaf ≠ idField → ∀ name, back.lookup name =
        if name = m.idProperty.leaf then
          (members.lookup m.idProperty.leaf).or (members.lookup idField)
        else if name = idField then none else members.lookup name)) ∧
    ((∀ members, m.Describes members →
        (ofEntity m (.object members) >>= toEntity m) = .ok (.object members)) ↔
      m.idProperty.leaf = idField ∨ m.properties.resolve? idField = none) := by
  refine ⟨fun members h => ?_, ?_, ?_⟩
  · exact ⟨_, _, rfl, (records_ofEntity h).toEntity, rename_rename_eq_iff h.ascending,
      fun hne => lookup_rename_rename hne members⟩
  · intro hall
    by_contra hclash
    obtain ⟨hne, hdeclared⟩ := not_or.mp hclash
    -- An entity with nothing but a member `id` is taken for one with nothing but an identifier.
    have hdescribes : m.Describes [(idField, .null)] :=
      ⟨List.pairwise_singleton _ _, List.forall_mem_singleton.mpr (Option.isSome_iff_ne_none.mpr hdeclared)⟩
    have hsame := hall _ hdescribes
    rw [ofEntity, ok_bind, (records_ofEntity hdescribes).toEntity] at hsame
    rcases (rename_rename_eq_iff hdescribes.ascending).mp (Json.object.inj (Except.ok.inj hsame)) with
      hleaf | hfree
    · exact hne hleaf
    · simp at hfree
  · intro hkept members h
    rw [ofEntity, ok_bind, (records_ofEntity h).toEntity]
    exact congrArg (Except.ok ∘ Json.object)
      ((rename_rename_eq_iff h.ascending).mpr (hkept.imp_right h.lookup_eq_none))

end Document

/-- Contacts, whose identifiers have a name of their own beside a property `id`. -/
def Contact.metadata : EntityMetadata where
  typeName := "Contact"
  collection := "Contact"
  idProperty := ⟨["logicId"], .string⟩
  partitionKey := none
  properties := PropertyTable.build [("id", .string), ("logicId", .string), ("title", .string)]

namespace Document

theorem restored_iff_contacts :
    Contact.metadata.Describes [("logicId", .string "b"), ("title", .string "Dr")] ∧
      (ofEntity Contact.metadata (.object [("logicId", .string "b"), ("title", .string "Dr")])
          >>= toEntity Contact.metadata)
        = .ok (.object [("logicId", .string "b"), ("title", .string "Dr")]) := by
  have hdescribes : Contact.metadata.Describes [("logicId", .string "b"), ("title", .string "Dr")] :=
    ⟨by decide, by decide⟩
  obtain ⟨hall, -⟩ := restored_iff Contact.metadata
  obtain ⟨document, back, hdocument, hback, hsame, -⟩ := hall _ hdescribes
  refine ⟨hdescribes, ?_⟩
  rw [hdocument, ok_bind, hback, hsame.mpr (.inr (by decide))]

/-- A contact with both members comes back without its `id`. -/
theorem id_lost_contacts :
    EntityMetadata.ofDescription {
        name := "Contact", id := "logicId"
        properties := [("id", .string), ("logicId", .string), ("title", .string)] }
      = .ok Contact.metadata ∧
    Contact.metadata.Describes [("id", .string "a"), ("logicId", .string "b")] ∧
    (ofEntity Contact.metadata (.object [("id", .string "a"), ("logicId", .string "b")])
        >>= toEntity Contact.metadata) = .ok (.object [("logicId", .string "b")]) := by
  exact ⟨rfl, ⟨by decide, by decide⟩, rfl⟩

end Document

end DerivedQuery
