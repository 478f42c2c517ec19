import DerivedQuery.Document.Lookup
import DerivedQuery.Plan.Capability
import DerivedQuery.Predicate.Order

/-!
# Ordering results

Documents are ordered by the value of one field. Documents whose values are equal keep their order, in
both directions. The documents are inserted one by one, each behind the last one that it does not
precede.

Where comparing the values is transitive, this is the one stable order, and any other stable sort finds
it as well. Where it is not, a sort of many documents may find another order or fail, so nothing about
sorted results may rest on this one there.
-/

namespace DerivedQuery

/-- Puts an element in front of those at the end of a list that it precedes. The list is given with
its last element first. -/
def insertFromEnd {α : Type} (precedes : α → α → Bool) (x : α) : List α → List α
  | [] => [x]
  | last :: rest =>
    if precedes x last then last :: insertFromEnd precedes x rest else x :: last :: rest

/-- The elements in order of `precedes`; elements of which neither precedes the other keep their
order. -/
def insertionSort {α : Type} (precedes : α → α → Bool) (elements : List α) : List α :=
  (elements.foldl (fun sorted x => insertFromEnd precedes x sorted) []).reverse

/-- An inserted element is added to the list. -/
theorem insertFromEnd_perm {α : Type} (precedes : α → α → Bool) (x : α) (list : List α) :
    (insertFromEnd precedes x list).Perm (x :: list) := by
  induction list with
  | nil => exact .refl _
  | cons last rest ih =>
    rw [insertFromEnd]
    split
    · exact (ih.cons last).trans (.swap x last rest)
    · exact .refl _

/-- Inserting the elements one by one adds them all. -/
theorem foldl_insertFromEnd_perm {α : Type} (precedes : α → α → Bool) (elements sorted : List α) :
    (elements.foldl (fun sorted x => insertFromEnd precedes x sorted) sorted).Perm
      (elements ++ sorted) := by
  induction elements generalizing sorted with
  | nil => exact .refl _
  | cons x rest ih =>
    exact ((ih _).trans ((insertFromEnd_perm precedes x sorted).append_left rest)).trans
      List.perm_middle

/-- Nothing is lost and nothing repeated. -/
theorem insertionSort_perm {α : Type} (precedes : α → α → Bool) (elements : List α) :
    (insertionSort precedes elements).Perm elements := by
  have h := foldl_insertFromEnd_perm precedes elements []
  rw [List.append_nil] at h
  exact (List.reverse_perm _).trans h

namespace OrderKey

/-- How two documents compare by a key. -/
def compare (key : OrderKey) (a b : Document) : Ordering :=
  let ordering := Json.totalOrder (a.field? key.field) (b.field? key.field)
  match key.direction with
  | .asc => ordering
  | .desc => ordering.swap

/-- The documents in the order of a key, or as they are without one. Of many documents with values that do
not compare transitively this is one order among others. -/
def arrange (key : Option OrderKey) (documents : List Document) : List Document :=
  match key with
  | none => documents
  | some key => insertionSort (fun a b => key.compare a b == .lt) documents

end OrderKey

end DerivedQuery
