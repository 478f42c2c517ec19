import DerivedQuery.Proofs.Store.Keys

/-!
# Additions that fail

An addition that fails changes no document and no collection that exists. It does leave something behind
in one case: a collection that does not exist yet is created before the document's partition is looked
at, and stays, empty, when the document is refused (`MemoryStore.upsert_of_error`). An addition that
names no partition creates a collection that takes every document in, so it is never this case.

An empty collection and none answer most calls alike. `StoreCall.TellsEmpty` says which calls tell them
apart.
-/

namespace DerivedQuery

/-- The call tells an empty collection from none: it adds a document, or it names one without a
partition. -/
def StoreCall.TellsEmpty (name : String) : StoreCall → Prop
  | .pointRead collection _ none | .pointDelete collection _ none | .upsert collection _ _ =>
    collection = name
  | _ => False

namespace MemoryStore

variable {store later : MemoryStore} {name : String}

/-- The answer to a call depends on the collection that it is about alone. -/
theorem answer_congr {call : StoreCall}
    (h : later.collection? call.collection = store.collection? call.collection) :
    (memoryStore.answer call later).1 = (memoryStore.answer call store).1 := by
  cases call with
  | execute collection query =>
    show later.execute collection query = store.execute collection query
    unfold execute
    rw [show later.collection? collection = store.collection? collection from h]
  | pointRead collection id partition =>
    show later.pointRead collection id partition = store.pointRead collection id partition
    unfold pointRead
    rw [show later.collection? collection = store.collection? collection from h]
  | pointDelete collection id partition =>
    show (later.pointDelete collection id partition).1 = (store.pointDelete collection id partition).1
    unfold pointDelete
    rw [show later.collection? collection = store.collection? collection from h]
    cases store.collection? collection with
    | none => rfl
    | some found =>
      dsimp only
      cases found.key collection id partition <;> rfl
  | count collection query =>
    show Except.ok (later.count collection query) = Except.ok (store.count collection query)
    unfold count
    rw [show later.collection? collection = store.collection? collection from h]
  | upsert collection document partition =>
    show (later.upsert collection document partition).1 = (store.upsert collection document partition).1
    unfold upsert
    rw [show later.collection? collection = store.collection? collection from h]
    cases (document.get? idField).bind Document.idText? with
    | none => rfl
    | some id =>
      dsimp only
      cases ((store.collection? collection).getD
        { partitionField := partition.map (·.field) }).partitionOf id document partition <;> rfl

/-- Creating a collection that does not exist matters only to calls that tell an empty one from none. -/
theorem answer_create (hnew : store.collection? name = none) (field : String) {call : StoreCall}
    (hcall : ¬call.TellsEmpty name) :
    (memoryStore.answer call (store.create name (some field))).1 = (memoryStore.answer call store).1 := by
  by_cases hname : call.collection = name
  · have hcreated : (store.create name (some field)).collection? name
        = some { partitionField := some field } := collection?_put_self _ _ _
    cases call with
    | execute collection query =>
      obtain rfl : collection = name := hname
      have hempty : OrderKey.arrange query.order [] = [] := by cases query.order <;> rfl
      show (store.create collection (some field)).execute collection query
        = store.execute collection query
      unfold execute
      rw [hcreated, hnew]
      simp [MemoryCollection.select, MemoryCollection.contents, hempty, batch]
    | pointRead collection id partition =>
      obtain rfl : collection = name := hname
      cases partition with
      | none => exact absurd rfl hcall
      | some binding =>
        show (store.create collection (some field)).pointRead collection id binding
          = store.pointRead collection id binding
        unfold pointRead
        rw [hcreated, hnew]
        rfl
    | pointDelete collection id partition =>
      obtain rfl : collection = name := hname
      cases partition with
      | none => exact absurd rfl hcall
      | some binding =>
        show ((store.create collection (some field)).pointDelete collection id binding).1
          = (store.pointDelete collection id binding).1
        unfold pointDelete
        rw [hcreated, hnew]
        rfl
    | count collection query =>
      obtain rfl : collection = name := hname
      show Except.ok ((store.create collection (some field)).count collection query)
        = Except.ok (store.count collection query)
      unfold count
      rw [hcreated, hnew]
      cases query <;> rfl
    | upsert collection document partition => exact absurd hname hcall
  · exact answer_congr (collection?_put_of_ne _ hname _)

/-- An addition to a collection that does not exist creates it if the document has an identifier. -/
theorem upsert_of_no_collection (hnew : store.collection? name = none) {document : Document}
    {id : String} (hid : (document.get? idField).bind Document.idText? = some id)
    (partition : Option PartitionBinding) :
    ∃ outcome documents, store.upsert name document partition
      = (outcome, store.put name { partitionField := partition.map (·.field), documents }) ∧
      ∀ error, outcome = .error error → documents = [] ∧ partition.isSome := by
  unfold upsert
  rw [hid, hnew]
  dsimp only [Option.getD_none]
  cases hpartition : MemoryCollection.partitionOf { partitionField := partition.map (·.field) } id
    document partition with
  | error error =>
    refine ⟨.error error, [], rfl, fun _ _ => ⟨rfl, ?_⟩⟩
    -- Without a field of the partition nothing is refused.
    cases partition with
    | none => cases hpartition
    | some binding => rfl
  | ok text => exact ⟨.ok (), _, rfl, nofun⟩

/-- **An addition that fails leaves the store as it was, or leaves an empty collection behind.** The
latter is so just if the collection did not exist and the document has an identifier. The addition named
a partition then, and only calls that tell an empty collection from none are answered otherwise than
before. -/
theorem upsert_of_error (h : store.collections.Ascending) {document : Document}
    {partition : Option PartitionBinding} {error : StoreError}
    (hfailed : store.upsert name document partition = (.error error, later)) :
    (later = store ↔ (store.collection? name).isSome ∨
      (document.get? idField).bind Document.idText? = none) ∧
    (partition = none → later = store) ∧
    (later ≠ store → ∃ binding, partition = some binding ∧
      later = store.create name (some binding.field) ∧
      ∀ call : StoreCall, ¬call.TellsEmpty name →
        (memoryStore.answer call later).1 = (memoryStore.answer call store).1) := by
  cases hid : (document.get? idField).bind Document.idText? with
  | none =>
    have hlater : later = store := by
      rw [upsert, hid] at hfailed
      exact (Prod.mk.inj hfailed).2.symm
    exact ⟨iff_of_true hlater (.inr rfl), fun _ => hlater, fun hne => absurd hlater hne⟩
  | some id =>
    cases hfound : store.collection? name with
    | some collection =>
      have hlater : later = store := by
        rw [upsert_of_collection h hfound] at hfailed
        cases hreceive : collection.receive name document partition with
        | ok key =>
          rw [hreceive] at hfailed
          cases hfailed
        | error error =>
          rw [hreceive] at hfailed
          exact (Prod.mk.inj hfailed).2.symm
      exact ⟨iff_of_true hlater (.inl rfl), fun _ => hlater, fun hne => absurd hlater hne⟩
    | none =>
      obtain ⟨outcome, documents, hupsert, hrefused⟩ := upsert_of_no_collection hfound hid partition
      obtain ⟨rfl, rfl⟩ := Prod.mk.inj (hupsert.symm.trans hfailed)
      obtain ⟨rfl, hnamed⟩ := hrefused error rfl
      obtain ⟨binding, rfl⟩ := Option.isSome_iff_exists.mp hnamed
      have hne : store.put name { partitionField := some binding.field } ≠ store := by
        intro heq
        have hcreated := collection?_put_self store name { partitionField := some binding.field }
        rw [heq, hfound] at hcreated
        cases hcreated
      refine ⟨iff_of_false hne (by simp), nofun, fun _ => ⟨binding, rfl, rfl, ?_⟩⟩
      intro call hcall
      exact answer_create hfound binding.field hcall

end MemoryStore

/-- A document that does not say its country, added to the towns of Norway. -/
def Town.addNowhere (store : MemoryStore) : Except StoreError Unit × MemoryStore :=
  store.upsert "towns" (.object [("id", .string "4")]) (some ⟨"country", "country", .string "NO"⟩)

namespace MemoryStore

theorem upsert_of_error_towns :
    (Town.addNowhere Town.store).2 = Town.store ∧
      (Town.addNowhere {}).2 = MemoryStore.create {} "towns" (some "country") := by
  have hrefused : ∀ store, (Town.addNowhere store).1
      = .error (.badRequest "document '4' has no value for partition field 'country'") →
      store.upsert "towns" (.object [("id", .string "4")])
        (some ⟨"country", "country", .string "NO"⟩) = (.error (.badRequest
          "document '4' has no value for partition field 'country'"), (Town.addNowhere store).2) :=
    fun _ h => Prod.ext h rfl
  obtain ⟨hunchanged, -, -⟩ :=
    upsert_of_error Town.reachable_store.sound.ascending (hrefused Town.store rfl)
  obtain ⟨hchanged, -, hcreated⟩ := upsert_of_error Entries.ascending_nil (hrefused {} rfl)
  have hnew : (Town.addNowhere {}).2 ≠ {} := by
    intro hsame
    rcases hchanged.mp hsame with h | h
    · cases show false = true from h
    · cases show some "4" = none from h
  obtain ⟨_, ⟨⟩, hlater, -⟩ := hcreated hnew
  exact ⟨hunchanged.mpr (.inl rfl), hlater⟩

/-- Behind an addition that has failed, a document is refused that would have been taken in. -/
theorem upsert_failed_creates :
    (Town.addNowhere {}).1
        = .error (.badRequest "document '4' has no value for partition field 'country'") ∧
      (Town.addNowhere {}).2 ≠ {} ∧
      ((Town.addNowhere {}).2.insert "towns" (.object [("id", .string "5")])).1
        = .error (.badRequest "document '5' has no value for partition field 'country'") ∧
      (MemoryStore.insert {} "towns" (.object [("id", .string "5")])).1 = .ok () := by
  refine ⟨rfl, ?_, rfl, rfl⟩
  intro hsame
  cases congrArg (·.collections.length) hsame

end MemoryStore

end DerivedQuery
