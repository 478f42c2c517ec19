import DerivedQuery.Plan.Partition
import DerivedQuery.Predicate.Eval
import DerivedQuery.Proofs.Failure
import DerivedQuery.Proofs.Json.Equality
import DerivedQuery.Proofs.Store.Reachable

/-!
# Which partition predicates pin

`Partition.Pins` says when predicates pin a field to one value. They have a partition exactly then, and
every document that they select lies in it. For the evaluator a predicate that pins a field is equality
of values (`Predicate.equals_false`), which only a value that is not `null` has with one that is not.
-/

namespace DerivedQuery

/-- Equality of values with regard to case is their equality. -/
theorem Predicate.equals_false (a b : Json) : Predicate.equals false a b = a.same b := by
  unfold Predicate.equals
  split
  · next s t =>
    rw [Bool.eq_iff_iff, Json.same, beq_iff_eq, beq_iff_eq]
    exact String.toList_inj
  · rfl

theorem PredicateTree.holds_of_mem {tree : PredicateTree} {predicate : Predicate}
    {document : Document} (hand : tree.connector = .and) (hmem : predicate ∈ tree.predicates)
    (h : tree.holds document) : predicate.holds document := by
  have hsome : tree.predicates.isEmpty = false :=
    List.isEmpty_eq_false_iff.mpr (List.ne_nil_of_mem hmem)
  rw [PredicateTree.holds, hsome, hand] at h
  exact List.all_eq_true.mp h predicate hmem

/-- The same partition, with an equal value. -/
structure PartitionBinding.Agrees (binding other : PartitionBinding) : Prop where
  property : binding.property = other.property
  field : binding.field = other.field
  value : binding.value.same other.value

namespace Partition

/-! ## Values that are pinned -/

theorem pinned?_eq_some_iff {predicate : Predicate} {value : Json} :
    pinned? predicate = some value ↔
      predicate.operator = .equal ∧ predicate.ignoreCase = false ∧ predicate.values = [value] ∧
        value.isNull = false := by
  have hliteral : predicate.literal? = some value ↔ predicate.values = [value] := by
    unfold Predicate.literal?
    split
    · next found hfound => rw [hfound, List.cons_eq_cons, Option.some.injEq, and_iff_left rfl]
    · next hnone =>
      constructor
      · exact nofun
      · exact fun h => absurd h (hnone value)
  unfold pinned?
  by_cases hequal : (predicate.operator == .equal && !predicate.ignoreCase) = true
  · rw [if_pos hequal, Option.filter_eq_some_iff, hliteral, Bool.not_eq_true']
    rw [Bool.and_eq_true, beq_iff_eq, Bool.not_eq_true'] at hequal
    simp only [hequal, true_and]
  · rw [if_neg hequal]
    rw [Bool.and_eq_true, beq_iff_eq, Bool.not_eq_true'] at hequal
    constructor
    · exact nofun
    · rintro ⟨hoperator, hcase, -⟩
      exact absurd ⟨hoperator, hcase⟩ hequal

theorem mapM_pinned?_eq_some_iff {predicates : List Predicate} {values : List Json} :
    predicates.mapM pinned? = some values ↔ predicates.map pinned? = values.map some := by
  induction predicates generalizing values with
  | nil => cases values <;> simp
  | cons predicate rest ih =>
    rw [List.mapM_cons, List.map_cons]
    constructor
    · intro h
      obtain ⟨value, hvalue, h⟩ := Option.bind_eq_some_iff.mp h
      obtain ⟨others, hothers, ⟨⟩⟩ := Option.bind_eq_some_iff.mp h
      rw [List.map_cons, hvalue, ih.mp hothers]
    · intro h
      cases values with
      | nil => cases h
      | cons value others =>
        obtain ⟨hvalue, hothers⟩ := List.cons_eq_cons.mp h
        rw [hvalue, ih.mpr hothers]
        rfl

theorem agreed?_eq_some_iff {values : List Json} {value : Json} :
    agreed? values = some value ↔ values.head? = some value ∧ ∀ other ∈ values, value.same other := by
  cases values with
  | nil => exact ⟨nofun, fun h => nomatch h.1⟩
  | cons first rest =>
    rw [agreed?, List.head?_cons, Option.ite_none_right_eq_some, List.all_eq_true]
    constructor
    · rintro ⟨hall, ⟨⟩⟩
      exact ⟨rfl, List.forall_mem_cons.mpr ⟨value.same_refl, hall⟩⟩
    · rintro ⟨⟨⟩, hall⟩
      exact ⟨(List.forall_mem_cons.mp hall).2, rfl⟩

/-! ## Predicates that pin a field -/

/-- Predicates that pin a field to one value. -/
structure Pins (field : String) (tree : PredicateTree) : Prop where
  conjunction : tree.connector = .and
  present : ∃ predicate ∈ tree.predicates, predicate.field = field
  equality : ∀ predicate ∈ tree.predicates, predicate.field = field →
    predicate.operator = .equal ∧ predicate.ignoreCase = false ∧
      ∃ value, predicate.values = [value] ∧ value.isNull = false
  agreement : ∀ predicate ∈ tree.predicates, ∀ other ∈ tree.predicates,
    predicate.field = field → other.field = field →
      ∀ value ∈ predicate.values, ∀ otherValue ∈ other.values, value.same otherValue

variable {m : EntityMetadata} {key : PropertyPath} {tree : PredicateTree} {binding : PartitionBinding}

theorem resolve?_eq_some_iff (hkey : m.partitionKey = some key) :
    resolve? m tree = some binding ↔
      tree.connector = .and ∧ ∃ values : List Json,
        (tree.predicates.filter (·.field == m.documentField key)).map pinned? = values.map some ∧
        (values.head? = some binding.value ∧ ∀ other ∈ values, binding.value.same other) ∧
        binding.property = key.dotted ∧ binding.field = m.documentField key := by
  obtain ⟨property, field, value⟩ := binding
  simp only [resolve?, hkey, Option.bind_some, Option.bind_eq_bind]
  by_cases hand : tree.connector = .and
  · rw [if_neg (not_not_intro hand)]
    simp only [Option.bind_eq_some_iff, mapM_pinned?_eq_some_iff, agreed?_eq_some_iff, hand, true_and]
    constructor
    · rintro ⟨values, hvalues, found, hagreed, ⟨⟩⟩
      exact ⟨values, hvalues, hagreed, rfl, rfl⟩
    · rintro ⟨values, hvalues, hagreed, rfl, rfl⟩
      exact ⟨values, hvalues, value, hagreed, rfl⟩
  · rw [if_pos hand]
    exact ⟨nofun, fun h => absurd h.1 hand⟩

/-- The values that predicates pin their field to are those of the predicates on it. -/
theorem mem_pinned_iff {field : String} {values : List Json} {value : Json}
    (h : (tree.predicates.filter (·.field == field)).map pinned? = values.map some) :
    value ∈ values ↔
      ∃ predicate ∈ tree.predicates, predicate.field = field ∧ pinned? predicate = some value := by
  have hmap : value ∈ values ↔ some value ∈ values.map some := by simp
  rw [hmap, ← h, List.mem_map]
  simp only [List.mem_filter, beq_iff_eq, and_assoc]

theorem pins_of_resolve? (hkey : m.partitionKey = some key) (h : resolve? m tree = some binding) :
    Pins (m.documentField key) tree := by
  obtain ⟨hand, values, hvalues, ⟨hhead, hagreed⟩, -⟩ := (resolve?_eq_some_iff hkey).mp h
  -- No predicate on the field is passed over: each one has its value among `values`.
  have hpinned : ∀ predicate ∈ tree.predicates, predicate.field = m.documentField key →
      ∃ value ∈ values, pinned? predicate = some value := by
    intro predicate hmem hfield
    have hsome : pinned? predicate ∈ values.map some := by
      rw [← hvalues]
      exact List.mem_map_of_mem (List.mem_filter.mpr ⟨hmem, beq_iff_eq.mpr hfield⟩)
    obtain ⟨value, hvalue, heq⟩ := List.mem_map.mp hsome
    exact ⟨value, hvalue, heq.symm⟩
  refine ⟨hand, ?_, ?_, ?_⟩
  · obtain ⟨predicate, hmem, hfield, -⟩ := (mem_pinned_iff hvalues).mp (List.mem_of_head? hhead)
    exact ⟨predicate, hmem, hfield⟩
  · intro predicate hmem hfield
    obtain ⟨value, -, hpin⟩ := hpinned predicate hmem hfield
    obtain ⟨hoperator, hcase, hvalue, hnull⟩ := pinned?_eq_some_iff.mp hpin
    exact ⟨hoperator, hcase, value, hvalue, hnull⟩
  · intro predicate hmem other hother hfield hfield' value hvalue otherValue hvalue'
    obtain ⟨pin, hpin, hpredicate⟩ := hpinned predicate hmem hfield
    obtain ⟨pin', hpin', hpredicate'⟩ := hpinned other hother hfield'
    obtain ⟨-, -, hone, -⟩ := pinned?_eq_some_iff.mp hpredicate
    obtain ⟨-, -, hone', -⟩ := pinned?_eq_some_iff.mp hpredicate'
    rw [hone, List.mem_singleton] at hvalue
    rw [hone', List.mem_singleton] at hvalue'
    subst hvalue hvalue'
    -- Both are the same as the value of the binding.
    exact Json.same_trans (Json.same_symm (hagreed value hpin)) (hagreed otherValue hpin')

theorem resolve?_of_pins (hkey : m.partitionKey = some key) (h : Pins (m.documentField key) tree) :
    ∃ binding, resolve? m tree = some binding := by
  have hpinned : ∀ predicate ∈ tree.predicates.filter (·.field == m.documentField key),
      ∃ value, pinned? predicate = some value := by
    intro predicate hmem
    obtain ⟨hmem, hfield⟩ := List.mem_filter.mp hmem
    obtain ⟨hoperator, hcase, value, hvalue, hnull⟩ :=
      h.equality predicate hmem (beq_iff_eq.mp hfield)
    exact ⟨value, pinned?_eq_some_iff.mpr ⟨hoperator, hcase, hvalue, hnull⟩⟩
  have hvalues := map_eq_map_some_filterMap hpinned
  generalize (tree.predicates.filter (·.field == m.documentField key)).filterMap pinned? = values
    at hvalues
  -- Any value may stand for all, and the first one does.
  obtain ⟨first, hfirst⟩ : ∃ first, values.head? = some first := by
    obtain ⟨predicate, hmem, hfield⟩ := h.present
    obtain ⟨hoperator, hcase, value, hvalue, hnull⟩ := h.equality predicate hmem hfield
    have hin := (mem_pinned_iff hvalues).mpr ⟨predicate, hmem, hfield,
      pinned?_eq_some_iff.mpr ⟨hoperator, hcase, hvalue, hnull⟩⟩
    exact Option.isSome_iff_exists.mp (List.isSome_head?.mpr (List.ne_nil_of_mem hin))
  refine ⟨⟨key.dotted, m.documentField key, first⟩, (resolve?_eq_some_iff hkey).mpr
    ⟨h.conjunction, values, hvalues, ⟨hfirst, fun other hother => ?_⟩, rfl, rfl⟩⟩
  obtain ⟨predicate, hmem, hfield, hpin⟩ :=
    (mem_pinned_iff hvalues).mp (List.mem_of_head? hfirst)
  obtain ⟨predicate', hmem', hfield', hpin'⟩ := (mem_pinned_iff hvalues).mp hother
  obtain ⟨-, -, hone, -⟩ := pinned?_eq_some_iff.mp hpin
  obtain ⟨-, -, hone', -⟩ := pinned?_eq_some_iff.mp hpin'
  exact h.agreement predicate hmem predicate' hmem' hfield hfield'
    first (hone ▸ List.mem_singleton_self first) other (hone' ▸ List.mem_singleton_self other)

/-- One predicate that pins the partition key gives the partition. -/
theorem require_pin {value : Json} (hkey : m.partitionKey = some key) (hnull : value.isNull = false) :
    require m ⟨.and, [{
        property := key, field := m.documentField key, operator := .equal, ignoreCase := false
        values := [value] }]⟩ = .ok (some ⟨key.dotted, m.documentField key, value⟩) := by
  simp [require, EntityMetadata.isPartitioned, resolve?, pinned?, Predicate.literal?, agreed?,
    Option.filter_some, hkey, hnull]

/-! ## Documents that are selected -/

/-- A predicate that pins its field is satisfied only by documents with that value in it. -/
theorem field?_of_pinned? {predicate : Predicate} {value : Json} {document : Document}
    (hpin : pinned? predicate = some value) (hholds : predicate.holds document) :
    ∃ found, document.field? predicate.field = some found ∧ found.same value := by
  obtain ⟨hoperator, hcase, hvalue, -⟩ := pinned?_eq_some_iff.mp hpin
  rw [Predicate.holds, hoperator, hcase, hvalue] at hholds
  cases hfound : document.field? predicate.field with
  | none =>
    rw [hfound] at hholds
    cases hholds
  | some found =>
    rw [hfound] at hholds
    have hequals : Predicate.equals false found value := hholds
    rw [Predicate.equals_false] at hequals
    exact ⟨found, rfl, hequals⟩

/-- A document that is selected lies in the partition of the predicates. -/
theorem ofDocument_of_holds {document : Document} (hkey : m.partitionKey = some key)
    (h : resolve? m tree = some binding) (hholds : tree.holds document) :
    ∃ found, ofDocument m document = .ok (some found) ∧ found.property = binding.property ∧
      found.field = binding.field ∧ found.value.same binding.value := by
  obtain ⟨hand, values, hvalues, ⟨hhead, -⟩, hproperty, hfield⟩ := (resolve?_eq_some_iff hkey).mp h
  -- Some predicate asks for the value of the binding, and a selected document satisfies it.
  obtain ⟨predicate, hmem, honField, hpin⟩ :=
    (mem_pinned_iff hvalues).mp (List.mem_of_head? hhead)
  obtain ⟨found, hfound, hsame⟩ :=
    field?_of_pinned? hpin (PredicateTree.holds_of_mem hand hmem hholds)
  have hnull : found.isNull = false := by
    obtain ⟨-, -, -, hnull⟩ := pinned?_eq_some_iff.mp hpin
    rw [Json.isNull_eq_of_same hsame, hnull]
  have hvalue : (document.field? (m.documentField key)).filter (!·.isNull) = some found := by
    rw [← honField, hfound, Option.filter_some, hnull]
    rfl
  refine ⟨⟨key.dotted, m.documentField key, found⟩, ?_, hproperty.symm, hfield.symm, hsame⟩
  simp only [ofDocument, hkey, hvalue]

/-- A document that is selected by predicates that pin a partition, where one is needed, lies in it. -/
theorem ofDocument_of_require {pinned : Option PartitionBinding} {document : Document}
    (h : require m tree = .ok pinned) (hholds : tree.holds document) :
    ∃ own, ofDocument m document = .ok own ∧ Option.Rel PartitionBinding.Agrees own pinned := by
  cases hkey : m.partitionKey with
  | none =>
    rw [require, EntityMetadata.isPartitioned, hkey] at h
    cases h
    exact ⟨none, by rw [ofDocument, hkey], .none⟩
  | some key =>
    rw [require, EntityMetadata.isPartitioned, hkey] at h
    cases hresolve : resolve? m tree with
    | none =>
      rw [hresolve] at h
      cases h
    | some binding =>
      rw [hresolve] at h
      cases h
      obtain ⟨own, hown, hproperty, hfield, hvalue⟩ := ofDocument_of_holds hkey hresolve hholds
      exact ⟨some own, hown, .some ⟨hproperty, hfield, hvalue⟩⟩

/-- **Predicates have a partition exactly if they pin its field, and select only documents in it.** -/
theorem resolve?_iff_pins_and_sound (hkey : m.partitionKey = some key) (tree : PredicateTree) :
    ((resolve? m tree).isSome ↔ Pins (m.documentField key) tree) ∧
    ∀ binding, resolve? m tree = some binding →
      binding.property = key.dotted ∧ binding.field = m.documentField key ∧
      ∀ document, tree.holds document →
        ∃ found, ofDocument m document = .ok (some found) ∧ found.property = binding.property ∧
          found.field = binding.field ∧ found.value.same binding.value := by
  refine ⟨⟨fun h => ?_, fun h => ?_⟩, fun binding h => ?_⟩
  · obtain ⟨binding, hbinding⟩ := Option.isSome_iff_exists.mp h
    exact pins_of_resolve? hkey hbinding
  · exact Option.isSome_iff_exists.mpr (resolve?_of_pins hkey h)
  · obtain ⟨-, _, -, -, hproperty, hfield⟩ := (resolve?_eq_some_iff hkey).mp h
    exact ⟨hproperty, hfield, fun document hholds => ofDocument_of_holds hkey h hholds⟩

theorem resolve?_iff_pins_and_sound_towns :
    Pins "country" ⟨.and, [Town.norway, Town.norway]⟩ ∧
      ∃ found, ofDocument Town.metadata (Town.document "1" "NO" "Oslo") = .ok (some found) ∧
        found.value.same (.string "NO") := by
  obtain ⟨hpins, hsound⟩ :=
    resolve?_iff_pins_and_sound (m := Town.metadata) rfl ⟨.and, [Town.norway, Town.norway]⟩
  refine ⟨hpins.mp rfl, ?_⟩
  obtain ⟨-, -, hdocument⟩ := hsound ⟨"country", "country", .string "NO"⟩ rfl
  obtain ⟨found, hfound, -, -, hsame⟩ := hdocument (Town.document "1" "NO" "Oslo") (by decide)
  exact ⟨found, hfound, hsame⟩

end Partition

end DerivedQuery
