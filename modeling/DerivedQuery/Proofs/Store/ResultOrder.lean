import Mathlib.Data.List.Chain
import DerivedQuery.Proofs.Predicate.Order
import DerivedQuery.Store.ResultOrder

/-!
# Sorted results

Insertion sorts by any relation of which the negation is transitive on the elements: then no element
precedes one that stands before it (`pairwise_insertionSort`). What is in order already is left alone
(`insertionSort_eq_self`), so lists are sorted by a comparison just where it is transitive
(`pairwise_insertionSort_iff`): three elements of which none precedes the one before it stay as they are,
though the last one may precede the first one.

The order of values is transitive on values that do not clash, and so documents with such values are
sorted, in both directions, and no others are (`totalOrder_preorder_and_sorted_iff`). Three names of
which two are one instant are not (`arrange_instants`).
-/

namespace DerivedQuery

/-! ## Insertion -/

section Insertion

variable {α : Type} {precedes : α → α → Bool}

/-- An element is inserted where it belongs. The list is given with its last element first. -/
theorem pairwise_insertFromEnd {x : α} {list : List α}
    (hasymm : ∀ y ∈ list, precedes x y = true → precedes y x = false)
    (htrans : ∀ y ∈ list, ∀ z ∈ list, precedes x y = false → precedes y z = false →
      precedes x z = false)
    (h : list.Pairwise fun later earlier => precedes later earlier = false) :
    (insertFromEnd precedes x list).Pairwise fun later earlier => precedes later earlier = false := by
  induction list with
  | nil => exact List.pairwise_singleton _ x
  | cons last rest ih =>
    obtain ⟨hlast, hrest⟩ := List.pairwise_cons.mp h
    rw [insertFromEnd]
    split
    · next hprecedes =>
      refine List.pairwise_cons.mpr ⟨fun y hy => ?_, ih ?_ ?_ hrest⟩
      · rcases List.mem_cons.mp ((insertFromEnd_perm precedes x rest).mem_iff.mp hy) with rfl | hy
        · exact hasymm last List.mem_cons_self hprecedes
        · exact hlast y hy
      · exact fun y hy => hasymm y (List.mem_cons_of_mem _ hy)
      · exact fun y hy z hz => htrans y (List.mem_cons_of_mem _ hy) z (List.mem_cons_of_mem _ hz)
    · next hnot =>
      rw [Bool.not_eq_true] at hnot
      refine List.pairwise_cons.mpr ⟨List.forall_mem_cons.mpr ⟨hnot, fun y hy => ?_⟩, h⟩
      exact htrans last List.mem_cons_self y (List.mem_cons_of_mem _ hy) hnot (hlast y hy)

/-- An element to be inserted is inserted. -/
theorem append_insertFromEnd_perm {x : α} {rest sorted : List α} :
    (rest ++ insertFromEnd precedes x sorted).Perm (x :: rest ++ sorted) :=
  ((insertFromEnd_perm precedes x sorted).append_left rest).trans List.perm_middle

theorem pairwise_foldl_insertFromEnd {elements sorted : List α}
    (hasymm : ∀ x ∈ elements ++ sorted, ∀ y ∈ elements ++ sorted,
      precedes x y = true → precedes y x = false)
    (htrans : ∀ x ∈ elements ++ sorted, ∀ y ∈ elements ++ sorted, ∀ z ∈ elements ++ sorted,
      precedes x y = false → precedes y z = false → precedes x z = false)
    (h : sorted.Pairwise fun later earlier => precedes later earlier = false) :
    (elements.foldl (fun sorted x => insertFromEnd precedes x sorted) sorted).Pairwise
      fun later earlier => precedes later earlier = false := by
  induction elements generalizing sorted with
  | nil => exact h
  | cons x rest ih =>
    -- What is inserted next stands among the same elements.
    have hmem : ∀ y ∈ rest ++ insertFromEnd precedes x sorted, y ∈ x :: rest ++ sorted :=
      fun _ => append_insertFromEnd_perm.mem_iff.mp
    have hx : x ∈ x :: rest ++ sorted := List.mem_cons_self
    have hsorted : ∀ y ∈ sorted, y ∈ x :: rest ++ sorted := fun y hy => List.mem_append_right _ hy
    refine ih (fun y hy z hz => hasymm y (hmem y hy) z (hmem z hz))
      (fun y hy z hz w hw => htrans y (hmem y hy) z (hmem z hz) w (hmem w hw)) ?_
    exact pairwise_insertFromEnd (fun y hy => hasymm x hx y (hsorted y hy))
      (fun y hy z hz => htrans x hx y (hsorted y hy) z (hsorted z hz)) h

/-- **No element precedes one that is sorted before it.** -/
theorem pairwise_insertionSort {elements : List α}
    (hasymm : ∀ x ∈ elements, ∀ y ∈ elements, precedes x y = true → precedes y x = false)
    (htrans : ∀ x ∈ elements, ∀ y ∈ elements, ∀ z ∈ elements,
      precedes x y = false → precedes y z = false → precedes x z = false) :
    (insertionSort precedes elements).Pairwise fun earlier later => precedes later earlier = false := by
  refine List.pairwise_reverse.mpr (pairwise_foldl_insertFromEnd ?_ ?_ List.Pairwise.nil)
  · rwa [List.append_nil]
  · rwa [List.append_nil]

theorem foldl_insertFromEnd_eq {elements sorted : List α}
    (h : (elements.reverse ++ sorted).IsChain fun later earlier => precedes later earlier = false) :
    elements.foldl (fun sorted x => insertFromEnd precedes x sorted) sorted
      = elements.reverse ++ sorted := by
  induction elements generalizing sorted with
  | nil => rfl
  | cons x rest ih =>
    rw [List.reverse_cons, List.append_assoc, List.singleton_append] at h ⊢
    have hinsert : insertFromEnd precedes x sorted = x :: sorted := by
      cases sorted with
      | nil => rfl
      | cons last sorted =>
        have hlast := (List.isChain_cons_cons.mp (List.isChain_append.mp h).2.1).1
        rw [insertFromEnd, hlast, if_neg Bool.false_ne_true]
    rw [List.foldl_cons, hinsert, ih h]

/-- A list in which no element precedes the one before it is left alone. -/
theorem insertionSort_eq_self {elements : List α}
    (h : elements.IsChain fun earlier later => precedes later earlier = false) :
    insertionSort precedes elements = elements := by
  have hreverse :
      (elements.reverse ++ []).IsChain fun later earlier => precedes later earlier = false := by
    rw [List.append_nil]
    exact List.isChain_reverse.mpr h
  rw [insertionSort, foldl_insertFromEnd_eq hreverse, List.append_nil, List.reverse_reverse]

end Insertion

section Comparison

variable {α : Type} {cmp : α → α → Ordering} [Std.OrientedCmp cmp] {elements : List α} {a b c : α}

theorem beq_lt_eq_false_iff : (cmp b a == .lt) = false ↔ (cmp a b).isLE = true := by
  have hswap : cmp b a = (cmp a b).swap := Std.OrientedCmp.eq_swap
  rw [hswap]
  cases cmp a b <;> decide

/-- **All lists of the elements are sorted just where comparing them is transitive.** -/
theorem pairwise_insertionSort_iff :
    (∀ list : List α, (∀ x ∈ list, x ∈ elements) →
      (insertionSort (fun a b => cmp a b == .lt) list).Pairwise fun a b => cmp b a ≠ .lt) ↔
      TransitiveOn cmp elements := by
  constructor
  · intro h a ha b hb c hc hab hbc
    -- Sorting leaves the three as they are.
    have hchain : [a, b, c].IsChain fun earlier later => (cmp later earlier == .lt) = false := by
      simp only [List.isChain_cons_cons, List.isChain_singleton, beq_lt_eq_false_iff, hab, hbc, and_self]
    have hsorted := h [a, b, c] (by simp [ha, hb, hc])
    rw [insertionSort_eq_self hchain] at hsorted
    have hca : cmp c a ≠ .lt := (List.pairwise_cons.mp hsorted).1 c (by simp)
    exact beq_lt_eq_false_iff.mp (beq_eq_false_iff_ne.mpr hca)
  · intro h list hlist
    have htrans := h.mono hlist
    refine (pairwise_insertionSort (fun a _ b _ hab => ?_) fun a ha b hb c hc hab hbc => ?_).imp ?_
    · rw [beq_lt_eq_false_iff, beq_iff_eq.mp hab]
      rfl
    · rw [beq_lt_eq_false_iff] at hab hbc ⊢
      exact htrans c hc b hb a ha hbc hab
    · exact fun h => beq_eq_false_iff_ne.mp h

end Comparison

/-! ## Documents -/

namespace OrderKey

theorem compare_swap (key : OrderKey) (a b : Document) : key.compare b a = (key.compare a b).swap := by
  unfold compare
  cases key.direction with
  | asc => exact Json.totalOrder_swap _ _
  | desc => exact congrArg Ordering.swap (Json.totalOrder_swap _ _)

instance (key : OrderKey) : Std.OrientedCmp key.compare := ⟨compare_swap key _ _⟩

/-- The values of the documents in the field of the key. -/
def values (key : OrderKey) (documents : List Document) : List (Option Json) :=
  documents.map fun document => document.field? key.field

/-- Comparing documents is transitive, in either direction, just where comparing their values is. -/
theorem transitiveOn_compare_iff (key : OrderKey) (documents : List Document) :
    TransitiveOn key.compare documents ↔ TransitiveOn Json.totalOrder (key.values documents) := by
  rw [values, transitiveOn_map_iff]
  cases hdirection : key.direction with
  | asc => simp only [TransitiveOn, compare, hdirection]
  | desc =>
    simp only [TransitiveOn, compare, hdirection, ← Json.totalOrder_swap]
    exact ⟨fun h a ha b hb c hc hab hbc => h c hc b hb a ha hbc hab,
      fun h a ha b hb c hc hab hbc => h c hc b hb a ha hbc hab⟩

/-- **Documents are sorted just where their values are harmonious.** -/
theorem pairwise_arrange_iff (key : OrderKey) (documents : List Document) :
    (∀ list : List Document, (∀ document ∈ list, document ∈ documents) →
      (arrange (some key) list).Pairwise fun a b => key.compare b a ≠ .lt) ↔
      Json.Harmonious (key.values documents) :=
  pairwise_insertionSort_iff.trans
    ((transitiveOn_compare_iff key documents).trans Json.transitiveOn_totalOrder_iff)

end OrderKey

/-! ## Preorder and sorted results -/

/-- **Comparing is reversed from the other side and reflexive. Just where values do not clash it is
transitive, and all lists of documents with them are sorted by it.** -/
theorem totalOrder_preorder_and_sorted_iff (values : List (Option Json)) (key : OrderKey)
    (documents : List Document) :
    (∀ a b, Json.totalOrder b a = (Json.totalOrder a b).swap) ∧
    (∀ a, Json.totalOrder a a = .eq) ∧
    (TransitiveOn Json.totalOrder values ↔ Json.Harmonious values) ∧
    ((∀ list : List Document, (∀ document ∈ list, document ∈ documents) →
      (OrderKey.arrange (some key) list).Pairwise fun a b => key.compare b a ≠ .lt) ↔
      Json.Harmonious (key.values documents)) :=
  ⟨Json.totalOrder_swap, Json.totalOrder_self, Json.transitiveOn_totalOrder_iff,
    OrderKey.pairwise_arrange_iff key documents⟩

/-- A town in the order of names. -/
def namedTown (name : Json) : Document := .object [("name", name)]

theorem segments_name : Text.segments "name" = ["name"] := by decide

theorem field?_namedTown (name : Json) : (namedTown name).field? "name" = some name := by
  rw [Document.field?, segments_name]
  rfl

/-- Documents with a text, two numbers and a missing name are sorted. -/
theorem totalOrder_preorder_and_sorted_iff_towns :
    let key : OrderKey := { property := ⟨["name"], .string⟩, field := "name", direction := .desc }
    let documents := [namedTown (.string "Oslo"), namedTown (.int 3),
      namedTown (.number (.float ⟨false, 0x4008000000000001⟩)), .object []]
    Json.Harmonious (key.values documents) ∧
      (OrderKey.arrange (some key) documents).Pairwise fun a b => key.compare b a ≠ .lt := by
  intro key documents
  have hvalues : key.values documents = [some (.string "Oslo"), some (.int 3),
      some (.number (.float ⟨false, 0x4008000000000001⟩)), none] := by
    have hmissing : Document.field? (.object []) "name" = none := by
      rw [Document.field?, segments_name]
      rfl
    simp only [OrderKey.values, key, documents, List.map_cons, List.map_nil, field?_namedTown, hmissing]
  have hharmonious : Json.Harmonious (key.values documents) := by
    rw [hvalues]
    refine Json.harmonious_of_uniform (.inr ?_) (.inr ?_)
    · intro s hs
      obtain rfl : s = "Oslo" := by simpa [Json.int] using hs
      decide
    · intro i hi
      obtain rfl : i = 3 := by simpa [Json.int] using hi
      decide
  obtain ⟨-, -, -, hsorted⟩ := totalOrder_preorder_and_sorted_iff [] key documents
  exact ⟨hharmonious, hsorted.mpr hharmonious documents fun _ hdocument => hdocument⟩

/-- Two names of one instant, and a name between them that is no instant: the documents stay as they are,
though the last one precedes the first one. -/
theorem arrange_instants :
    let key : OrderKey := { property := ⟨["name"], .string⟩, field := "name", direction := .asc }
    let earlier := namedTown (.string "2024-01-01T12:00:00+00:00")
    let between := namedTown (.string "2024-01-01T12:30")
    let later := namedTown (.string "2024-01-01T13:00:00+01:00")
    key.compare later earlier = .eq ∧ key.compare earlier between = .lt ∧
      key.compare between later = .lt ∧
      OrderKey.arrange (some key) [later, earlier, between] = [later, earlier, between] := by
  intro key earlier between later
  obtain ⟨hsame, hbefore, hafter⟩ := Json.totalOrder_instants
  have hcompare : ∀ a b : Json, key.compare (namedTown a) (namedTown b)
      = Json.totalOrder (some a) (some b) := by
    intro a b
    simp only [OrderKey.compare, key, field?_namedTown]
  have hfirst : key.compare later earlier = .eq := (hcompare _ _).trans hsame
  have hsecond : key.compare earlier between = .lt := (hcompare _ _).trans hbefore
  have hthird : key.compare between later = .lt := by
    rw [OrderKey.compare_swap, hcompare, hafter]
    rfl
  have hchain : [later, earlier, between].IsChain
      fun earlier later => (key.compare later earlier == .lt) = false := by
    simp only [List.isChain_cons_cons, List.isChain_singleton, beq_lt_eq_false_iff, hfirst, hsecond,
      Ordering.isLE_eq, Ordering.isLE_lt, and_self]
  exact ⟨hfirst, hsecond, hthird, insertionSort_eq_self hchain⟩

end DerivedQuery
