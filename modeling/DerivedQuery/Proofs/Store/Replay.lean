import DerivedQuery.Proofs.Engine.Removals
import DerivedQuery.Proofs.Store.Entry

/-!
# What answered calls make of a store

The state that exchanges leave a store in memory in is that which the answered calls make of it, one
behind the other (`MemoryStore.Replays`). For this a call that is refused has to leave the store alone
(`StoreCall.Spares`). An addition may leave a collection behind, but not if it names the partition of its
document (`StoreCall.spares_upsert`).

Searches leave the store alone (`MemoryStore.Replays.of_searches`). Removals from a collection make it
smaller by as many documents as they are answered to have removed (`MemoryStore.Replays.shrinks`).
-/

namespace DerivedQuery

/-! ## Refused calls -/

/-- A sound store in memory that refuses the call is left as it is. -/
def StoreCall.Spares (call : StoreCall) : Prop :=
  ∀ store later error, store.Sound → memoryStore.answer call store = (.error error, later) →
    later = store

namespace StoreCall

/-- The call searches, or it removes a document from a collection. -/
def ClearsAt (name : String) (call : StoreCall) : Prop :=
  call.partition? = none ∨ ∃ id partition, call = .pointDelete name id partition

theorem spares_of_search {call : StoreCall} (h : call.partition? = none) : call.Spares := by
  rintro store later error - hrefused
  cases call with
  | execute name query => exact (Prod.mk.inj hrefused).2.symm
  | count name query => exact (Prod.mk.inj hrefused).2.symm
  | pointRead | pointDelete | upsert => cases h

theorem spares_pointDelete (name id : String) (partition : Option PartitionBinding) :
    (pointDelete name id partition).Spares := by
  intro store later error _ hrefused
  have hdelete : store.pointDelete name id partition = (.error error, later) := hrefused
  unfold MemoryStore.pointDelete at hdelete
  cases hfound : store.collection? name with
  | none =>
    rw [hfound] at hdelete
    cases hdelete
  | some collection =>
    rw [hfound] at hdelete
    dsimp only at hdelete
    cases hkey : collection.key name id partition with
    | error error =>
      rw [hkey] at hdelete
      exact (Prod.mk.inj hdelete).2.symm
    | ok key =>
      rw [hkey] at hdelete
      cases hdelete

theorem ClearsAt.spares {name : String} {call : StoreCall} (h : call.ClearsAt name) : call.Spares := by
  rcases h with hsearch | ⟨id, partition, rfl⟩
  · exact spares_of_search hsearch
  · exact spares_pointDelete name id partition

/-- A collection that is created for the partition of a document takes the document in. -/
theorem spares_upsert {m : EntityMetadata} {document : Document} {partition : Option PartitionBinding}
    (hplaced : Partition.ofDocument m document = .ok partition) (name : String) :
    (upsert name document partition).Spares := by
  intro store later error hsound hrefused
  have hupsert : store.upsert name document partition = (.error error, later) := hrefused
  cases hid : (document.get? idField).bind Document.idText? with
  | none =>
    rw [MemoryStore.upsert, hid] at hupsert
    exact (Prod.mk.inj hupsert).2.symm
  | some id =>
    cases hfound : store.collection? name with
    | none =>
      obtain ⟨text, htext⟩ := Engine.partitionOf_ofDocument hplaced id
      rw [MemoryStore.upsert, hid, hfound] at hupsert
      dsimp only [Option.getD_none] at hupsert
      rw [htext] at hupsert
      cases hupsert
    | some collection =>
      rw [MemoryStore.upsert_of_collection hsound.ascending hfound] at hupsert
      cases hreceive : collection.receive name document partition with
      | ok key =>
        rw [hreceive] at hupsert
        cases hupsert
      | error error =>
        rw [hreceive] at hupsert
        exact (Prod.mk.inj hupsert).2.symm

end StoreCall

namespace MemoryStore

variable {store later : MemoryStore} {name : String} {asked : List Exchange}

/-! ## Answered calls -/

/-- The calls that were answered, made one behind the other with the same answers, lead from one store to
the other. Those that failed change nothing. -/
inductive Replays : MemoryStore → List Exchange → MemoryStore → Prop where
  | nil (store : MemoryStore) : Replays store [] store
  | answered {store between later : MemoryStore} {call : StoreCall} {answer : call.Answer}
      {asked : List Exchange} (h : memoryStore.answer call store = (.ok answer, between))
      (rest : Replays between asked later) : Replays store (⟨call, .ok answer⟩ :: asked) later
  | failed {store later : MemoryStore} {asked : List Exchange} (call : StoreCall) (error : StoreError)
      (rest : Replays store asked later) : Replays store (⟨call, .error error⟩ :: asked) later

namespace Replays

theorem append {last : MemoryStore} {more : List Exchange} (h : store.Replays asked later)
    (h' : later.Replays more last) : store.Replays (asked ++ more) last := by
  induction h with
  | nil => exact h'
  | answered h _ ih => exact .answered h (ih h')
  | failed call error _ ih => exact .failed call error (ih h')

theorem sound (h : store.Replays asked later) (hsound : store.Sound) : later.Sound := by
  induction h with
  | nil => exact hsound
  | @answered store between later call answer asked h _ ih =>
    have hbetween := hsound.answer call
    rw [h] at hbetween
    exact ih hbetween
  | failed call error _ ih => exact ih hsound

/-- **Searches leave the store alone.** -/
theorem of_searches (h : store.Replays asked later) (hsearches : Searches asked) : later = store := by
  induction h with
  | nil => rfl
  | @answered store between later call answer asked h _ ih =>
    obtain ⟨hcall, hrest⟩ := List.forall_mem_cons.mp hsearches
    rw [ih hrest]
    cases call with
    | execute name query => exact (Prod.mk.inj h).2.symm
    | count name query => exact (Prod.mk.inj h).2.symm
    | pointRead | pointDelete | upsert => cases hcall
  | failed call error _ ih => exact ih (List.forall_mem_cons.mp hsearches).2

end Replays

/-! ## Removals -/

/-- A removal makes its collection smaller by the document that it says to have removed. -/
theorem size_pointDelete {id : String} {partition : Option PartitionBinding} {deleted : Bool}
    (hsound : store.Sound) (h : store.pointDelete name id partition = (.ok deleted, later)) :
    later.size name + (if deleted then 1 else 0) = store.size name ∧
      ∀ other, other ≠ name → later.collection? other = store.collection? other := by
  unfold pointDelete at h
  cases hfound : store.collection? name with
  | none =>
    rw [hfound] at h
    cases h
    exact ⟨rfl, fun _ _ => rfl⟩
  | some collection =>
    rw [hfound] at h
    dsimp only at h
    cases hkey : collection.key name id partition with
    | error error =>
      rw [hkey] at h
      cases h
    | ok key =>
      rw [hkey] at h
      cases h
      refine ⟨?_, fun other hother => collection?_put_of_ne _ hother _⟩
      have hascending := (hsound.collection_sound hfound).ascending
      rw [size_eq, size_eq, entries_put_self, entries, hfound, Option.elim_some]
      cases hlookup : collection.documents.lookup key with
      | none => rw [Entries.erase_of_lookup_eq_none hlookup]; rfl
      | some document => exact hascending.length_erase hlookup

/-- **Removals from a collection make it smaller by what they say to have removed, and leave all other
collections alone.** -/
theorem Replays.shrinks (h : store.Replays asked later) (hsound : store.Sound)
    (hclears : ∀ exchange ∈ asked, exchange.call.ClearsAt name) :
    later.size name + asked.countP Exchange.removes = store.size name ∧
      ∀ other, other ≠ name → later.collection? other = store.collection? other := by
  induction h with
  | nil => exact ⟨rfl, fun _ _ => rfl⟩
  | @answered store between later call answer asked h _ ih =>
    obtain ⟨hcall, hrest⟩ := List.forall_mem_cons.mp hclears
    have hbetween := hsound.answer call
    rw [h] at hbetween
    obtain ⟨hsize, hothers⟩ := ih hbetween hrest
    rw [List.countP_cons]
    rcases hcall with hsearch | ⟨id, partition, rfl⟩
    · have hkept : between = store :=
        (Replays.answered h (.nil between)).of_searches (List.forall_mem_singleton.mpr hsearch)
      have hremoves : Exchange.removes ⟨call, .ok answer⟩ = false := by
        cases call with
        | pointDelete => cases hsearch
        | _ => rfl
      rw [hremoves, ← hkept]
      exact ⟨hsize, hothers⟩
    · obtain ⟨hsize', hothers'⟩ := size_pointDelete hsound h
      have hremoves : Exchange.removes ⟨.pointDelete name id partition, .ok answer⟩ = answer := rfl
      refine ⟨?_, fun other hother => (hothers other hother).trans (hothers' other hother)⟩
      rw [hremoves]
      omega
  | failed call error _ ih =>
    obtain ⟨hsize, hothers⟩ := ih hsound (List.forall_mem_cons.mp hclears).2
    have hremoves : Exchange.removes ⟨call, .error error⟩ = false := by cases call <;> rfl
    rw [List.countP_cons, hremoves]
    exact ⟨hsize, hothers⟩

end MemoryStore

end DerivedQuery
