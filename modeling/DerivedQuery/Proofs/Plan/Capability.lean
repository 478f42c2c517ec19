import DerivedQuery.Proofs.Entity.Metadata
import DerivedQuery.Proofs.Method.AllIgnoreCase
import DerivedQuery.Proofs.Method.Phrase

/-!
# Rules for what stores are asked

`Capability.Rule` lists what stores need of an operation and of a sort order, in the order in which it is
looked at, and `Capability.objection?` what is wrong if a rule is broken. An operation whose criteria are
about declared properties is refused for the first rule that is broken
(`Capability.validate_eq_error_iff`).

A name is parsed to nothing but declared properties, in its criteria and in its order
(`Method.declares_of_parse`), and these are in the table under their own paths
(`EntityMetadata.Declares.resolve?_dotted`). So for names exactly the supported shapes pass, and a
property is only unknown if it orders the result and the name does not say so
(`Capability.validate_decides_supported`).
-/

namespace DerivedQuery

/-! ## Properties of names -/

/-- A declared property is found under its own path. -/
theorem EntityMetadata.Declares.resolve?_dotted {description : EntityDescription} {m : EntityMetadata}
    {path : PropertyPath} (h : m.Declares path) (hm : ofDescription description = .ok m) :
    m.properties.resolve? path.dotted = some path := by
  obtain ⟨name, hname⟩ := h
  rw [properties_of_ofDescription hm] at hname ⊢
  have hdotted := (PropertyTable.keyed_build _ _ (Entries.mem_of_lookup_eq_some hname)).1
  dsimp only at hdotted
  exact hdotted ▸ hname

/-- **A name is parsed to declared properties.** -/
theorem Method.declares_of_parse {m : EntityMetadata} {method : String} {operation : Operation}
    (h : parse m method = .ok operation) :
    (∀ criterion ∈ operation.criteria, m.Declares criterion.property) ∧
      ∀ key ∈ operation.order, ∃ path, m.Declares path ∧ key.property = path.dotted := by
  obtain ⟨_, _, _, _, _, _, -, -, hcriteria, horder, rfl⟩ := parse_eq_ok_iff.mp h
  obtain ⟨_, _, -, hcriteria, -⟩ := of_readCriteria hcriteria
  obtain ⟨_, -, -, horder, -⟩ := of_readOrder horder
  constructor
  · have hmeant := hcriteria.flip.imp fun _ _ hmeans => And.intro hmeans.declared hmeans
    exact ((List.forall₂_and_left _ _).mp hmeant).1
  · have hmeant : List.Forall₂ (fun key phrase =>
        (∃ path, m.Declares path ∧ key.property = path.dotted) ∧ KeyPhrase.Means m phrase key) _ _ :=
      horder.flip.imp fun _ _ hmeans =>
        ⟨hmeans.refers.imp fun _ hpath => hpath.2, hmeans⟩
    exact ((List.forall₂_and_left _ _).mp hmeant).1

/-! ## Rules -/

/-- What is wrong with ignoring the case of a criterion that cannot. -/
def Criterion.caseFault (criterion : Criterion) : QueryFault :=
  if criterion.property.type.isTextual then
    .ignoreCaseOnOperator criterion.operator criterion.property.dotted
  else .ignoreCaseOnType criterion.property.type.name criterion.property.dotted

/-- The order that the key asks for is one by this property, and stores support it. -/
structure EntityMetadata.Orders (m : EntityMetadata) (key : SortKey) (path : PropertyPath) : Prop where
  declared : m.properties.resolve? key.property = some path
  caseSensitive : key.ignoreCase = false
  ne_id : path.segments ≠ m.idProperty.segments
  not_object : path.type.isObject = false
  not_array : path.type.isArray = false

namespace Capability

/-- What stores need of an operation and of a sort order. -/
inductive Rule where
  | noLimit
  | declaredCriteria
  | caseOfTexts
  | oneKey
  | caseSensitiveKey
  | declaredKey
  | noIdentifier
  | orderableKey
  deriving DecidableEq, Repr

/-- The rules in the order in which they are looked at. -/
def Rule.all : List Rule := [.noLimit, .declaredCriteria, .caseOfTexts, .oneKey, .caseSensitiveKey,
  .declaredKey, .noIdentifier, .orderableKey]

variable (m : EntityMetadata) (operation : Operation) (sort : Sorting)

/-- All criteria are about declared properties. -/
def Declared : Prop :=
  ∀ criterion ∈ operation.criteria, (m.properties.resolve? criterion.property.dotted).isSome

/-- What is wrong if a rule is broken. Of several criteria or keys that break it, the first one is
named. -/
def objection? : Rule → Option QueryError
  | .noLimit => operation.subject.limit.map fun limit =>
    .unsupportedQuery (.limited operation.method limit)
  | .declaredCriteria =>
    (operation.criteria.find? fun criterion =>
      (m.properties.resolve? criterion.property.dotted).isNone).map fun criterion =>
        .unknownProperty m.typeName criterion.property.dotted
  | .caseOfTexts =>
    (operation.criteria.find? fun criterion =>
      criterion.ignoreCase && !criterion.canIgnoreCase).map fun criterion =>
        .unsupportedQuery criterion.caseFault
  | .oneKey => if 1 < sort.length then some (.unsupportedSort (.manyKeys sort.length)) else none
  | .caseSensitiveKey => (sort.find? (·.ignoreCase)).map fun key =>
    .unsupportedSort (.ignoreCase key.property)
  | .declaredKey =>
    (sort.find? fun key => (m.properties.resolve? key.property).isNone).map fun key =>
      .unknownProperty m.typeName key.property
  | .noIdentifier =>
    (sort.find? fun key => (m.properties.resolve? key.property).any m.isId).map fun key =>
      .unsupportedSort (.identifier key.property)
  | .orderableKey => sort.findSome? fun key =>
    ((m.properties.resolve? key.property).filter (!·.type.isOrderable)).map fun path =>
      .unsupportedSort (.unorderable path.type.name key.property)

variable {m operation sort}

/-! ## Criteria -/

theorem checkCriterion_of_declared {criterion : Criterion}
    (h : (m.properties.resolve? criterion.property.dotted).isSome) :
    checkCriterion m criterion =
      if criterion.ignoreCase && !criterion.canIgnoreCase then
        .error (.unsupportedQuery criterion.caseFault)
      else .ok () := by
  have hnone : (m.properties.resolve? criterion.property.dotted).isNone = false := by
    rw [← Option.not_isSome, h, Bool.not_true]
  unfold checkCriterion Criterion.canIgnoreCase Criterion.caseFault
  dsimp only
  rw [hnone]
  cases criterion.ignoreCase <;> cases criterion.property.type.isTextual <;>
    cases criterion.operator.supportsIgnoreCase <;> rfl

/-- Criteria about declared properties are refused for the first one that ignores case where it cannot. -/
theorem forM_checkCriterion_of_declared (sort : Sorting) (h : Declared m operation) :
    operation.criteria.forM (checkCriterion m) =
      match objection? m operation sort .caseOfTexts with
      | none => .ok ()
      | some error => .error error := by
  have hall := forM_map_eq_find? fun criterion hmem => checkCriterion_of_declared (h criterion hmem)
  rw [List.map_id'] at hall
  rw [hall, objection?]
  cases operation.criteria.find? fun criterion => criterion.ignoreCase && !criterion.canIgnoreCase with
  | none => rfl
  | some criterion => rfl

/-! ## Keys -/

theorem isTextual_iff {type : PropertyType} : type.isTextual = true ↔ type = .string := by
  cases type <;> simp [PropertyType.isTextual]

theorem isOrderable_iff {type : PropertyType} :
    type.isOrderable = true ↔ type.isObject = false ∧ type.isArray = false := by
  cases type <;> simp [PropertyType.isOrderable, PropertyType.isObject, PropertyType.isArray]

theorem isId_eq_false_iff {path : PropertyPath} :
    m.isId path = false ↔ path.segments ≠ m.idProperty.segments := by
  rw [EntityMetadata.isId, beq_eq_false_iff_ne]

theorem resolve_eq_ok_iff {dotted : String} {path : PropertyPath} :
    m.resolve dotted = .ok path ↔ m.properties.resolve? dotted = some path := by
  unfold EntityMetadata.resolve
  cases m.properties.resolve? dotted <;> simp

/-- **A key is resolved if it asks for an order that stores support.** -/
theorem resolveKey_eq_ok_iff {key : SortKey} {order : OrderKey} :
    resolveKey m key = .ok order ↔
      ∃ path, m.Orders key path ∧ order = ⟨path, m.documentField path, key.direction⟩ := by
  simp only [resolveKey, ite_error_eq_ok_iff, bind_eq_ok_iff, resolve_eq_ok_iff, isId_eq_false_iff,
    Bool.not_eq_true, Bool.not_eq_eq_eq_not, Bool.not_true, Bool.not_eq_false, isOrderable_iff,
    Except.ok.injEq]
  constructor
  · rintro ⟨hcase, path, hdeclared, hid, ⟨hobject, harray⟩, rfl⟩
    exact ⟨path, ⟨hdeclared, hcase, hid, hobject, harray⟩, rfl⟩
  · rintro ⟨path, ⟨hdeclared, hcase, hid, hobject, harray⟩, rfl⟩
    exact ⟨hcase, path, hdeclared, hid, ⟨hobject, harray⟩, rfl⟩

theorem resolveSort_eq_ok_iff {order : Option OrderKey} :
    resolveSort m sort = .ok order ↔
      sort = [] ∧ order = none ∨
      ∃ key path, sort = [key] ∧ m.Orders key path ∧
        order = some ⟨path, m.documentField path, key.direction⟩ := by
  match sort with
  | [] => simp [resolveSort, eq_comm]
  | [key] =>
    have hmap : resolveSort m [key] = .ok order ↔
        ∃ found, resolveKey m key = .ok found ∧ order = some found := by
      rw [resolveSort]
      cases resolveKey m key with
      | error _ => exact ⟨nofun, nofun⟩
      | ok found => simp [Except.map, eq_comm]
    rw [hmap]
    simp only [resolveKey_eq_ok_iff]
    constructor
    · rintro ⟨_, ⟨path, hpath, rfl⟩, rfl⟩
      exact .inr ⟨key, path, rfl, hpath, rfl⟩
    · rintro (⟨hnil, -⟩ | ⟨_, path, ⟨⟩, hpath, rfl⟩)
      · cases hnil
      · exact ⟨_, ⟨path, hpath, rfl⟩, rfl⟩
  | _ :: _ :: _ => simp [resolveSort]

/-- **A sort order is refused for the first rule on keys that is broken.** -/
theorem resolveSort_eq_error_iff {error : QueryError} :
    resolveSort m sort = .error error ↔
      [Rule.oneKey, .caseSensitiveKey, .declaredKey, .noIdentifier, .orderableKey].findSome?
        (objection? m operation sort) = some error := by
  match sort with
  | [] => simp [resolveSort, List.findSome?_cons, objection?]
  | [key] =>
    -- All rules are about this one key, so what is known of its property decides.
    simp only [resolveSort, resolveKey, EntityMetadata.resolve, List.findSome?_cons,
      List.findSome?_nil, objection?, List.find?_singleton, List.length_singleton, Nat.lt_irrefl,
      if_false]
    cases key.ignoreCase with
    | true => simp [Except.map]
    | false =>
      cases m.properties.resolve? key.property with
      | none => simp [Except.map]
      | some path =>
        cases hid : m.isId path <;> cases horderable : path.type.isOrderable <;>
          simp [Except.map, hid, horderable, Option.filter]
  | _ :: _ :: _ => simp [resolveSort, objection?]

/-! ## Operations -/

/-- **An operation on declared properties passes if its case is ignored where it can be and its order is
supported.** -/
theorem exists_validate_eq_ok_iff (h : Declared m operation) :
    (∃ order, validate m operation sort = .ok order) ↔
      operation.subject.limit = none ∧
      (∀ criterion ∈ operation.criteria, criterion.ignoreCase →
        criterion.property.type = .string ∧ criterion.operator.supportsIgnoreCase) ∧
      (sort = [] ∨ ∃ key path, sort = [key] ∧ m.Orders key path) := by
  have hcriterion : ∀ criterion ∈ operation.criteria, checkCriterion m criterion = .ok () ↔
      (criterion.ignoreCase →
        criterion.property.type = .string ∧ criterion.operator.supportsIgnoreCase) := by
    intro criterion hmem
    simp only [checkCriterion_eq_ok_iff, h criterion hmem, true_and, isTextual_iff]
  simp only [validate_eq_ok_iff, forall₂_congr hcriterion, resolveSort_eq_ok_iff]
  constructor
  · rintro ⟨_, hlimit, hcase, ⟨rfl, -⟩ | ⟨key, path, rfl, hpath, -⟩⟩
    · exact ⟨hlimit, hcase, .inl rfl⟩
    · exact ⟨hlimit, hcase, .inr ⟨key, path, rfl, hpath⟩⟩
  · rintro ⟨hlimit, hcase, rfl | ⟨key, path, rfl, hpath⟩⟩
    · exact ⟨none, hlimit, hcase, .inl ⟨rfl, rfl⟩⟩
    · exact ⟨_, hlimit, hcase, .inr ⟨key, path, rfl, hpath, rfl⟩⟩

theorem objection?_declaredCriteria (h : Declared m operation) :
    objection? m operation sort .declaredCriteria = none := by
  refine Option.map_eq_none_iff.mpr (List.find?_eq_none.mpr fun criterion hmem => ?_)
  rw [Option.isNone_iff_eq_none, ← ne_eq, Option.ne_none_iff_isSome]
  exact h criterion hmem

/-- **An operation on declared properties is refused for the first rule that is broken.** -/
theorem validate_eq_error_iff (h : Declared m operation) {error : QueryError} :
    validate m operation sort = .error error ↔
      Rule.all.findSome? (objection? m operation sort) = some error := by
  have hlimit : checkLimit operation = match objection? m operation sort .noLimit with
      | none => .ok ()
      | some error => .error error := by
    unfold checkLimit objection?
    cases operation.subject.limit <;> rfl
  rw [validate, hlimit, forM_checkCriterion_of_declared sort h, Rule.all, List.findSome?_cons,
    List.findSome?_cons, objection?_declaredCriteria h, List.findSome?_cons]
  cases objection? m operation sort .noLimit with
  | some fault => simp
  | none =>
    cases objection? m operation sort .caseOfTexts with
    | some fault => simp
    | none => exact resolveSort_eq_error_iff

/-- Only a key that is not declared is unknown, if the properties of all criteria are declared. -/
theorem of_unknownProperty (h : Declared m operation) {rule : Rule} {entity property : String}
    (hobjection : objection? m operation sort rule = some (.unknownProperty entity property)) :
    ∃ key ∈ sort, key.property = property ∧ m.properties.resolve? property = none := by
  cases rule with
  | declaredKey =>
    obtain ⟨key, hfound, herror⟩ := Option.map_eq_some_iff.mp hobjection
    cases herror
    have hnone := List.find?_some hfound
    exact ⟨key, List.mem_of_find?_eq_some hfound, rfl, Option.isNone_iff_eq_none.mp hnone⟩
  | declaredCriteria =>
    rw [objection?_declaredCriteria h] at hobjection
    cases hobjection
  | oneKey =>
    obtain ⟨-, herror⟩ := Option.ite_none_right_eq_some.mp hobjection
    cases herror
  | orderableKey =>
    obtain ⟨_, -, hfound⟩ := List.exists_of_findSome?_eq_some hobjection
    obtain ⟨_, -, herror⟩ := Option.map_eq_some_iff.mp hfound
    cases herror
  | noLimit | caseOfTexts | caseSensitiveKey | noIdentifier =>
    obtain ⟨_, -, herror⟩ := Option.map_eq_some_iff.mp hobjection
    cases herror

/-- **For a parsed name exactly the supported shapes pass, and what is refused is refused for the first
rule that is broken.** The order that comes of a shape that passes is by the document field of its key,
and no property of the name itself is unknown. -/
theorem validate_decides_supported {description : EntityDescription} {method : String}
    (hm : EntityMetadata.ofDescription description = .ok m)
    (hparse : Method.parse m method = .ok operation) (sort : Sorting) :
    ((∃ order, validate m operation sort = .ok order) ↔
      operation.subject.limit = none ∧
      (∀ criterion ∈ operation.criteria, criterion.ignoreCase →
        criterion.property.type = .string ∧ criterion.operator.supportsIgnoreCase) ∧
      (sort = [] ∨ ∃ key path, sort = [key] ∧ m.Orders key path)) ∧
    (∀ order, validate m operation sort = .ok order →
      sort = [] ∧ order = none ∨
      ∃ key path, sort = [key] ∧ m.properties.resolve? key.property = some path ∧
        order = some ⟨path, m.documentField path, key.direction⟩) ∧
    (∀ error, validate m operation sort = .error error ↔
      Rule.all.findSome? (objection? m operation sort) = some error) ∧
    (∀ entity property, validate m operation sort = .error (.unknownProperty entity property) →
      (∃ key ∈ sort, key.property = property) ∧
      (∀ criterion ∈ operation.criteria, criterion.property.dotted ≠ property) ∧
      ∀ key ∈ operation.order, key.property ≠ property) := by
  obtain ⟨hcriteria, horder⟩ := Method.declares_of_parse hparse
  have hdeclared : Declared m operation := fun criterion hmem =>
    Option.isSome_of_eq_some ((hcriteria criterion hmem).resolve?_dotted hm)
  refine ⟨exists_validate_eq_ok_iff hdeclared, ?_, fun error => validate_eq_error_iff hdeclared, ?_⟩
  · intro order hvalid
    rcases resolveSort_eq_ok_iff.mp (validate_eq_ok_iff.mp hvalid).2.2 with hnil | hkey
    · exact .inl hnil
    · obtain ⟨key, path, hsort, hpath, hresolved⟩ := hkey
      exact .inr ⟨key, path, hsort, hpath.declared, hresolved⟩
  · intro entity property hunknown
    obtain ⟨rule, -, hobjection⟩ :=
      List.exists_of_findSome?_eq_some ((validate_eq_error_iff hdeclared).mp hunknown)
    obtain ⟨key, hkey, rfl, hnone⟩ := of_unknownProperty hdeclared hobjection
    refine ⟨⟨key, hkey, rfl⟩, ?_, ?_⟩
    · intro criterion hmem hsame
      rw [← hsame, Option.eq_none_iff_forall_ne_some] at hnone
      exact hnone _ ((hcriteria criterion hmem).resolve?_dotted hm)
    · intro own hown hsame
      obtain ⟨path, hpath, hproperty⟩ := horder own hown
      rw [← hsame, hproperty, Option.eq_none_iff_forall_ne_some] at hnone
      exact hnone _ (hpath.resolve?_dotted hm)

/-- Letters have a subject, stamps and a sender in a city. -/
def Letter.description : EntityDescription where
  name := "Letter"
  properties := [("id", .string), ("sender", .object [("city", .string)]),
    ("stamps", .array .string), ("subject", .string)]

def Letter.metadata : EntityMetadata where
  typeName := "Letter"
  collection := "Letter"
  idProperty := ⟨["id"], .string⟩
  partitionKey := none
  properties := PropertyTable.build Letter.description.properties

/-- A name passes with its own order, and not with one by an array. -/
theorem validate_decides_supported_letters :
    let operation : Operation := ⟨"findBySubjectContainingIgnoreCaseOrderBySenderCityDesc", .find, {},
      .and, [⟨⟨["subject"], .string⟩, .containing, true⟩], [⟨"sender.city", .desc, false⟩]⟩
    EntityMetadata.ofDescription Letter.description = .ok Letter.metadata ∧
    Method.parse Letter.metadata operation.method = .ok operation ∧
    validate Letter.metadata operation operation.order
      = .ok (some ⟨⟨["sender", "city"], .string⟩, "sender.city", .desc⟩) ∧
    validate Letter.metadata operation [⟨"stamps", .asc, false⟩]
      = .error (.unsupportedSort (.unorderable "array" "stamps")) := by
  intro operation
  have hm : EntityMetadata.ofDescription Letter.description = .ok Letter.metadata := rfl
  have hparse : Method.parse Letter.metadata "findBySubjectContainingIgnoreCaseOrderBySenderCityDesc"
      = .ok operation := by
    with_unfolding_all rfl
  have hcity : Letter.metadata.properties.resolve? "sender.city" = some ⟨["sender", "city"], .string⟩ :=
    rfl
  obtain ⟨hpasses, horder, -⟩ := validate_decides_supported hm hparse operation.order
  obtain ⟨order, hvalid⟩ := hpasses.mpr ⟨rfl, by simp [operation]; decide, .inr ⟨_, _, rfl, hcity, rfl,
    by decide, rfl, rfl⟩⟩
  obtain ⟨hnil, -⟩ | ⟨key, path, hkey, hpath, rfl⟩ := horder order hvalid
  · cases hnil
  · cases hkey
    cases hcity.symm.trans hpath
    obtain ⟨-, -, herror, -⟩ := validate_decides_supported hm hparse [⟨"stamps", .asc, false⟩]
    exact ⟨hm, hparse, hvalid, (herror _).mpr rfl⟩

end Capability

end DerivedQuery
