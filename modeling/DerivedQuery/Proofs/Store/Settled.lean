import DerivedQuery.Proofs.Store.Stability

/-!
# Settled orders

Comparing values is not transitive, and a sort may give up on such a comparison or leave any order
behind. Two things can be relied on (`OrderKey.IsSort`): a few documents are inserted one after the
other, and documents with values that compare transitively come in their stable order.

Where one of the two applies, the order is settled (`OrderKey.Settled`). There, and nowhere else, all
sorts have one result, which is that of insertion (`OrderKey.sorts_iff`). So whatever depends on the
success of a sort is stated for settled orders.
-/

namespace DerivedQuery.OrderKey

/-- So many documents are always inserted one after the other. -/
def insertionLimit : Nat := 20

/-- The documents are not sorted, or they are few, or their values compare transitively. -/
def Settled (order : Option OrderKey) (documents : List Document) : Prop :=
  ∀ key ∈ order, documents.length ≤ insertionLimit ∨
    TransitiveOn Json.totalOrder (key.values documents)

variable {order : Option OrderKey} {documents result : List Document}

theorem settled_none : Settled none documents := nofun

end DerivedQuery.OrderKey
