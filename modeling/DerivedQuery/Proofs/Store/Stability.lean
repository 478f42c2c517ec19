import DerivedQuery.Proofs.Store.ResultOrder

/-!
# Stable order

Insertion moves an element only over those that it precedes, so elements of which none precedes another
keep their order (`filter_insertionSort`). A list in order is known by its elements and by the order of
those that are equal (`eq_of_pairwise_of_filter_eq`).

So documents with values that compare transitively have exactly one stable order, in each direction, and
sorting finds it (`OrderKey.arrange_stable`). Documents without a value are on one end of it, next to them
those with `null`.
-/

namespace DerivedQuery

/-! ## Insertion -/

section Insertion

variable {α : Type} {precedes : α → α → Bool} {p : α → Bool}

theorem filter_insertFromEnd {x : α} {list : List α}
    (h : p x = true → ∀ y ∈ list, p y = true → precedes x y = false) :
    (insertFromEnd precedes x list).filter p = (x :: list).filter p := by
  induction list with
  | nil => rfl
  | cons last rest ih =>
    rw [insertFromEnd]
    split
    · next hprecedes =>
      rw [List.filter_cons, ih fun hx y hy => h hx y (List.mem_cons_of_mem _ hy)]
      -- Of the two that change places, at most one is looked at.
      cases hx : p x with
      | false => simp [List.filter_cons, hx]
      | true =>
        have hlast : p last = false := by
          refine Bool.eq_false_iff.mpr fun hlast => ?_
          rw [h hx last List.mem_cons_self hlast] at hprecedes
          cases hprecedes
        simp [hx, hlast]
    · rfl

theorem filter_foldl_insertFromEnd {elements sorted : List α}
    (h : ∀ x ∈ elements ++ sorted, ∀ y ∈ elements ++ sorted, p x = true → p y = true →
      precedes x y = false) :
    (elements.foldl (fun sorted x => insertFromEnd precedes x sorted) sorted).filter p
      = (elements.reverse ++ sorted).filter p := by
  induction elements generalizing sorted with
  | nil => rfl
  | cons x rest ih =>
    have hmem : ∀ y ∈ rest ++ insertFromEnd precedes x sorted, y ∈ x :: rest ++ sorted :=
      fun _ => append_insertFromEnd_perm.mem_iff.mp
    have hinsert : (insertFromEnd precedes x sorted).filter p = (x :: sorted).filter p :=
      filter_insertFromEnd fun hx y hy =>
        h x List.mem_cons_self y (List.mem_append_right _ hy) hx
    rw [List.foldl_cons, ih fun y hy z hz => h y (hmem y hy) z (hmem z hz), List.reverse_cons,
      List.append_assoc, List.singleton_append, List.filter_append, hinsert, List.filter_append]

/-- **Elements of which none precedes another keep their order.** -/
theorem filter_insertionSort {elements : List α}
    (h : ∀ x ∈ elements, ∀ y ∈ elements, p x = true → p y = true → precedes x y = false) :
    (insertionSort precedes elements).filter p = elements.filter p := by
  rw [insertionSort, List.filter_reverse, filter_foldl_insertFromEnd (by rwa [List.append_nil]),
    List.append_nil, ← List.filter_reverse, List.reverse_reverse]

/-- What is true up to some place divides a list there. -/
theorem filter_append_of_pairwise {list : List α}
    (h : list.Pairwise fun a b => p b = true → p a = true) :
    list = list.filter p ++ list.filter (!p ·) := by
  induction list with
  | nil => rfl
  | cons a rest ih =>
    obtain ⟨ha, hrest⟩ := List.pairwise_cons.mp h
    cases hp : p a with
    | true => simp [hp, ← ih hrest]
    | false =>
      have hnone : ∀ b ∈ rest, ¬ p b = true := fun b hb hpb =>
        Bool.false_ne_true (hp.symm.trans (ha b hb hpb))
      have hall : rest.filter (!p ·) = rest := List.filter_eq_self.mpr fun b hb => by simp [hnone b hb]
      simp [hp, List.filter_eq_nil_iff.mpr hnone, hall]

/-- What is true up to some place and something else from there to another one divide a list in three. -/
theorem filter_append_filter_of_pairwise {q : α → Bool} {list : List α}
    (hdisjoint : ∀ a, q a = true → p a = false)
    (hp : list.Pairwise fun a b => p b = true → p a = true)
    (hq : list.Pairwise fun a b => q b = true → p a = true ∨ q a = true) :
    list = list.filter p ++ (list.filter q ++ list.filter fun a => !p a && !q a) := by
  have hrest : (list.filter (!p ·)).Pairwise fun a b => q b = true → q a = true := by
    refine List.pairwise_filter.mpr (hq.imp fun h hpa _ hqb => (h hqb).resolve_left ?_)
    simpa using hpa
  have hfilter : list.filter (!p ·) = list.filter q ++ list.filter fun a => !p a && !q a := by
    refine (filter_append_of_pairwise hrest).trans ?_
    rw [List.filter_filter, List.filter_filter]
    congr 2
    · funext a
      cases hqa : q a with
      | false => rfl
      | true => rw [hdisjoint a hqa]; rfl
    · exact funext fun a => Bool.and_comm _ _
  rw [← hfilter]
  exact filter_append_of_pairwise hp

end Insertion

/-! ## Equal elements -/

section Comparison

variable {α : Type} {cmp : α → α → Ordering} [Std.OrientedCmp cmp] {a b c : α}
  {elements list other : List α}

/-- What is equal to one element is equal to another. -/
theorem TransitiveOn.eq_of_eq (h : TransitiveOn cmp elements) (ha : a ∈ elements) (hb : b ∈ elements)
    (hc : c ∈ elements) (hab : cmp a b = .eq) (hac : cmp a c = .eq) : cmp b c = .eq := by
  have hba : cmp b a = .eq := Std.OrientedCmp.eq_comm.mp hab
  have hca : cmp c a = .eq := Std.OrientedCmp.eq_comm.mp hac
  refine Std.OrientedCmp.isLE_antisymm ?_ ?_
  · exact h b hb a ha c hc (by rw [hba]; rfl) (by rw [hac]; rfl)
  · exact h c hc a ha b hb (by rw [hca]; rfl) (by rw [hab]; rfl)

/-- **A list in order is known by its elements and by the order of those that are equal.** -/
theorem eq_of_pairwise_of_filter_eq (hlist : list.Pairwise fun a b => cmp b a ≠ .lt)
    (hother : other.Pairwise fun a b => cmp b a ≠ .lt) (hperm : list.Perm other)
    (hstable : ∀ a ∈ list, list.filter (cmp a · == .eq) = other.filter (cmp a · == .eq)) :
    list = other := by
  induction list generalizing other with
  | nil => exact hperm.nil_eq
  | cons a rest ih =>
    cases other with
    | nil => exact absurd hperm.symm.nil_eq.symm (List.cons_ne_nil a rest)
    | cons b others =>
      obtain ⟨ha, hrest⟩ := List.pairwise_cons.mp hlist
      obtain ⟨hb, hothers⟩ := List.pairwise_cons.mp hother
      -- Neither of the first ones precedes the other, so they are the first of their equals.
      have hself : ∀ a, cmp a a = .eq := fun a => Std.ReflCmp.compare_self
      have hab : cmp a b = .eq := by
        rcases List.mem_cons.mp (hperm.mem_iff.mpr List.mem_cons_self) with rfl | hmem
        · exact hself b
        · rcases List.mem_cons.mp (hperm.mem_iff.mp List.mem_cons_self) with rfl | hmem'
          · exact hself a
          · have hba := ha b hmem
            have hab := hb a hmem'
            have hswap : cmp b a = (cmp a b).swap := Std.OrientedCmp.eq_swap
            rw [hswap] at hba
            cases hcmp : cmp a b with
            | eq => rfl
            | lt => exact absurd hcmp hab
            | gt => exact absurd (congrArg Ordering.swap hcmp) hba
      have hfirst := hstable a List.mem_cons_self
      simp only [List.filter_cons, hself, hab, beq_self_eq_true, if_true, List.cons.injEq] at hfirst
      obtain ⟨rfl, hfilter⟩ := hfirst
      refine congrArg (a :: ·) (ih hrest hothers hperm.cons_inv fun c hc => ?_)
      have hequal := hstable c (List.mem_cons_of_mem a hc)
      simp only [List.filter_cons] at hequal
      split at hequal
      · exact (List.cons.inj hequal).2
      · exact hequal

end Comparison

/-! ## Documents -/

namespace OrderKey

/-- The values of the documents are equal. -/
def tied (key : OrderKey) (document other : Document) : Bool :=
  Json.totalOrder (document.field? key.field) (other.field? key.field) == .eq

/-- The first document may stand before the second one. -/
def InOrder (key : OrderKey) (earlier later : Document) : Prop :=
  match key.direction with
  | .asc => Json.totalOrder (earlier.field? key.field) (later.field? key.field) ≠ .gt
  | .desc => Json.totalOrder (earlier.field? key.field) (later.field? key.field) ≠ .lt

/-- The result has the documents in order, and those with equal values as they were. -/
structure Arranges (key : OrderKey) (documents result : List Document) : Prop where
  perm : result.Perm documents
  sorted : result.Pairwise key.InOrder
  stable : ∀ document ∈ documents,
    result.filter (key.tied document) = documents.filter (key.tied document)

/-- The document has no value. -/
def lacks (key : OrderKey) (document : Document) : Bool :=
  (document.field? key.field).isNone

/-- The document has the value `null`. -/
def hasNull (key : OrderKey) (document : Document) : Bool :=
  match document.field? key.field with
  | some .null => true
  | _ => false

variable {key : OrderKey} {document other : Document} {documents result : List Document}

theorem inOrder_iff : key.InOrder document other ↔ key.compare other document ≠ .lt := by
  rw [compare_swap, InOrder, compare]
  cases key.direction with
  | asc => cases Json.totalOrder (document.field? key.field) (other.field? key.field) <;> simp
  | desc => cases Json.totalOrder (document.field? key.field) (other.field? key.field) <;> simp

theorem tied_eq : key.tied document other = (key.compare document other == .eq) := by
  rw [tied, compare]
  cases key.direction with
  | asc => rfl
  | desc => cases Json.totalOrder (document.field? key.field) (other.field? key.field) <;> rfl

/-- Documents that are all equal by the key keep their order. -/
theorem filter_arrange {p : Document → Bool}
    (h : ∀ a ∈ documents, ∀ b ∈ documents, p a = true → p b = true → key.compare a b = .eq) :
    (arrange (some key) documents).filter p = documents.filter p :=
  filter_insertionSort fun a ha b hb hpa hpb => by rw [h a ha b hb hpa hpb]; rfl

/-- **Sorting finds a stable order.** -/
theorem arranges_arrange (h : TransitiveOn Json.totalOrder (key.values documents)) :
    key.Arranges documents (arrange (some key) documents) := by
  have htrans := (transitiveOn_compare_iff key documents).mpr h
  refine ⟨insertionSort_perm _ documents, ?_, fun document hdocument => ?_⟩
  · exact (pairwise_insertionSort_iff.mpr htrans documents fun _ ha => ha).imp inOrder_iff.mpr
  · refine filter_arrange fun a ha b hb htied htied' => ?_
    rw [tied_eq, beq_iff_eq] at htied htied'
    exact htrans.eq_of_eq hdocument ha hb htied htied'

/-- **There is one stable order.** -/
theorem Arranges.unique {list : List Document} (h : key.Arranges documents result)
    (h' : key.Arranges documents list) : result = list := by
  have hsorted : result.Pairwise fun a b => key.compare b a ≠ .lt := h.sorted.imp inOrder_iff.mp
  refine eq_of_pairwise_of_filter_eq hsorted (h'.sorted.imp inOrder_iff.mp)
    (h.perm.trans h'.perm.symm) fun document hdocument => ?_
  have hmem := h.perm.mem_iff.mp hdocument
  have htied : key.tied document = (key.compare document · == .eq) := funext fun _ => tied_eq
  rw [← htied, h.stable document hmem, h'.stable document hmem]

/-- The document has a value that is not `null`. -/
def hasValue (key : OrderKey) (document : Document) : Bool :=
  !key.lacks document && !key.hasNull document

theorem lacks_iff : key.lacks document = true ↔ document.field? key.field = none :=
  Option.isNone_iff_eq_none

theorem hasNull_iff : key.hasNull document = true ↔ document.field? key.field = some .null := by
  unfold hasNull
  split <;> simp_all

theorem hasValue_iff : key.hasValue document = true ↔
    ∃ value, document.field? key.field = some value ∧ value ≠ .null := by
  rw [hasValue, Bool.and_eq_true, Bool.not_eq_true', Bool.not_eq_true', ← Bool.not_eq_true,
    ← Bool.not_eq_true, lacks_iff, hasNull_iff]
  cases document.field? key.field <;> simp

/-- Missing values are below all others. -/
theorem totalOrder_of_lacks (h : key.lacks document = true) (h' : key.lacks other = false) :
    Json.totalOrder (document.field? key.field) (other.field? key.field) = .lt := by
  rw [lacks_iff.mp h]
  cases hfield : other.field? key.field with
  | none => rw [lacks_iff.mpr hfield] at h'; cases h'
  | some value => rfl

/-- `null` is below all values but missing ones. -/
theorem totalOrder_of_hasNull (h : key.hasNull document = true) (h' : key.hasValue other = true) :
    Json.totalOrder (document.field? key.field) (other.field? key.field) = .lt := by
  obtain ⟨value, hfield, hvalue⟩ := hasValue_iff.mp h'
  rw [hasNull_iff.mp h, hfield]
  cases value with
  | null => exact absurd rfl hvalue
  | bool _ | number _ | string _ | array _ | object _ => rfl

theorem hasValue_of_not (h : ¬ key.lacks document = true) (h' : ¬ key.hasNull document = true) :
    key.hasValue document = true := by
  rw [Bool.not_eq_true] at h h'
  rw [hasValue, h, h']
  rfl

theorem not_lacks_of_hasNull (h : key.hasNull document = true) : key.lacks document = false := by
  rw [lacks, hasNull_iff.mp h]
  rfl

theorem not_lacks_of_hasValue (h : key.hasValue document = true) : key.lacks document = false := by
  obtain ⟨value, hfield, -⟩ := hasValue_iff.mp h
  rw [lacks, hfield]
  rfl

/-- Seen from the other end, those without a value are the rest. -/
theorem lacks_eq : key.lacks = fun document => !key.hasValue document && !key.hasNull document := by
  funext document
  rw [hasValue]
  cases hnull : key.hasNull document with
  | true => rw [not_lacks_of_hasNull hnull, Bool.not_true, Bool.and_false]
  | false => cases key.lacks document <;> rfl

/-- **Documents without a value are on one end, next to them those with `null`.** -/
theorem arrange_ends (h : TransitiveOn Json.totalOrder (key.values documents)) :
    arrange (some key) documents = match key.direction with
      | .asc => documents.filter key.lacks ++ (documents.filter key.hasNull
          ++ (arrange (some key) documents).filter key.hasValue)
      | .desc => (arrange (some key) documents).filter key.hasValue
          ++ (documents.filter key.hasNull ++ documents.filter key.lacks) := by
  have hlacks : (arrange (some key) documents).filter key.lacks = documents.filter key.lacks := by
    refine filter_arrange fun a _ b _ ha hb => ?_
    rw [← beq_iff_eq, ← tied_eq, tied, lacks_iff.mp ha, lacks_iff.mp hb]
    rfl
  have hnull : (arrange (some key) documents).filter key.hasNull = documents.filter key.hasNull := by
    refine filter_arrange fun a _ b _ ha hb => ?_
    rw [← beq_iff_eq, ← tied_eq, tied, hasNull_iff.mp ha, hasNull_iff.mp hb]
    rfl
  have hsorted := (arranges_arrange h).sorted
  cases hdirection : key.direction with
  | asc =>
    have hnot : (arrange (some key) documents).Pairwise fun a b =>
        Json.totalOrder (b.field? key.field) (a.field? key.field) ≠ .lt :=
      hsorted.imp fun hab => by simpa only [compare, hdirection] using inOrder_iff.mp hab
    rw [← hlacks, ← hnull]
    refine filter_append_filter_of_pairwise (fun _ => not_lacks_of_hasNull) ?_ ?_
    · refine hnot.imp fun hab hb => ?_
      by_contra ha
      exact hab (totalOrder_of_lacks hb (Bool.eq_false_iff.mpr ha))
    · refine hnot.imp fun hab hb => ?_
      by_contra ha
      obtain ⟨ha, ha'⟩ := not_or.mp ha
      exact hab (totalOrder_of_hasNull hb (hasValue_of_not ha ha'))
  | desc =>
    have hnot : (arrange (some key) documents).Pairwise fun a b =>
        Json.totalOrder (a.field? key.field) (b.field? key.field) ≠ .lt :=
      hsorted.imp fun hab => by simpa only [InOrder, hdirection] using hab
    have hdisjoint : ∀ document, key.hasNull document = true → key.hasValue document = false := by
      intro document hnull
      rw [hasValue, hnull, Bool.not_true, Bool.and_false]
    rw [← hlacks, ← hnull, lacks_eq]
    refine filter_append_filter_of_pairwise hdisjoint ?_ ?_
    · refine hnot.imp fun {a b} hab hb => ?_
      by_contra ha
      by_cases hlacking : key.lacks a = true
      · exact hab (totalOrder_of_lacks hlacking (not_lacks_of_hasValue hb))
      · by_cases hnulls : key.hasNull a = true
        · exact hab (totalOrder_of_hasNull hnulls hb)
        · exact ha (hasValue_of_not hlacking hnulls)
    · refine hnot.imp fun {a b} hab hb => ?_
      by_contra ha
      obtain ⟨ha, ha'⟩ := not_or.mp ha
      have hlacking : key.lacks a = true := by
        by_contra hlacking
        exact ha (hasValue_of_not hlacking ha')
      exact hab (totalOrder_of_lacks hlacking (not_lacks_of_hasNull hb))

/-- **Documents with values that compare transitively have one stable order in each direction, and
sorting finds it. Those without a value are on one end, next to them those with `null`.** Without a key
the documents stay as they are. -/
theorem arrange_stable (key : OrderKey) (documents : List Document) :
    arrange none documents = documents ∧
    (TransitiveOn Json.totalOrder (key.values documents) →
      (∀ result, result = arrange (some key) documents ↔ key.Arranges documents result) ∧
      ∃ rest, (∀ document ∈ rest, ∃ value, document.field? key.field = some value ∧ value ≠ .null) ∧
        arrange (some key) documents = match key.direction with
          | .asc => documents.filter key.lacks ++ (documents.filter key.hasNull ++ rest)
          | .desc => rest ++ (documents.filter key.hasNull ++ documents.filter key.lacks)) := by
  refine ⟨rfl, fun h => ⟨fun result => ⟨?_, fun hresult => ?_⟩, ?_⟩⟩
  · rintro rfl
    exact arranges_arrange h
  · exact hresult.unique (arranges_arrange h)
  · refine ⟨(arrange (some key) documents).filter key.hasValue, fun document hdocument => ?_, ?_⟩
    · exact hasValue_iff.mp (List.mem_filter.mp hdocument).2
    · exact arrange_ends h

/-- Two names of one instant stay as they are in descending order, before `null` and a missing name. -/
theorem arrange_stable_towns :
    let key : OrderKey := { property := ⟨["name"], .string⟩, field := "name", direction := .desc }
    let later := namedTown (.string "2024-01-01T13:00:00+01:00")
    let earlier := namedTown (.string "2024-01-01T12:00:00+00:00")
    let documents := [.object [], later, namedTown .null, earlier]
    TransitiveOn Json.totalOrder (key.values documents) ∧ key.tied later earlier = true ∧
      key.Arranges documents (arrange (some key) documents) := by
  intro key later earlier documents
  obtain ⟨hsame, -, -⟩ := Json.totalOrder_instants
  have htransitive : TransitiveOn Json.totalOrder (key.values documents) := by
    have hmissing : Document.field? (.object []) "name" = none := by
      rw [Document.field?, segments_name]
      rfl
    have hvalues : key.values documents = [none, some (.string "2024-01-01T13:00:00+01:00"),
        some .null, some (.string "2024-01-01T12:00:00+00:00")] := by
      simp only [values, key, documents, later, earlier, List.map_cons, List.map_nil, field?_namedTown,
        hmissing]
    rw [hvalues]
    refine Json.transitiveOn_totalOrder_iff.mpr (Json.harmonious_of_uniform (.inl ?_) (.inl ?_))
    · intro s hs
      obtain rfl | rfl : s = "2024-01-01T13:00:00+01:00" ∨ s = "2024-01-01T12:00:00+00:00" := by
        simpa using hs
      · decide +kernel
      · decide +kernel
    · intro n hn
      simp at hn
  have htied : key.tied later earlier = true := by
    simp only [tied, key, later, earlier, field?_namedTown]
    exact beq_iff_eq.mpr hsame
  exact ⟨htransitive, htied, (((arrange_stable key documents).2 htransitive).1 _).mp rfl⟩

end OrderKey

end DerivedQuery
