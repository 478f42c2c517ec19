import DerivedQuery.Proofs.Engine.Asks
import DerivedQuery.Proofs.Engine.Explain
import DerivedQuery.Proofs.Engine.Stock

/-!
# What removals by query ask

A call about one document names the partition of the entity, with a value that is not `null`, or none if
the entity has none (`EntityMetadata.Places`). A removal by query searches first. Then it removes what
the store has returned, each document by its own identifier and in its own partition, one after the other
up to the first failure (`EntityMetadata.Sweeps`).

One removal asks for its own document (`Engine.asks_deleteFound`), and by induction on the documents a
run of removals asks for theirs (`Engine.asks_deleteEach`). This holds whatever the store answers, so it
is shown from the texts of the functions alone.
-/

namespace DerivedQuery

/-! ## Partitions -/

namespace EntityMetadata

/-- A call about one document names the partition of the entity with this value, which is not `null`. If
the entity is not partitioned, it names none. -/
def Places (m : EntityMetadata) (value : Option Json) : Option PartitionBinding → Prop
  | none => m.partitionKey = none
  | some binding => ∃ key ∈ m.partitionKey, binding.property = key.dotted ∧
    binding.field = m.documentField key ∧ binding.value.isNull = false ∧ value = some binding.value

variable {m : EntityMetadata} {key : PropertyPath} {partition : Option PartitionBinding}

theorem places_of_unpartitioned (hkey : m.partitionKey = none) {value : Option Json} :
    m.Places value partition ↔ partition = none := by
  cases partition with
  | none => exact ⟨fun _ => rfl, fun _ => hkey⟩
  | some binding =>
    constructor
    · rintro ⟨key, hmem, -⟩
      rw [hkey] at hmem
      cases hmem
    · rintro ⟨⟩

theorem places_of_partitioned (hkey : m.partitionKey = some key) {value : Option Json} :
    m.Places value partition ↔ ∃ own, value = some own ∧ own.isNull = false ∧
      partition = some ⟨key.dotted, m.documentField key, own⟩ := by
  cases partition with
  | none =>
    constructor
    · intro hnone
      cases hkey.symm.trans hnone
    · rintro ⟨own, -, -, ⟨⟩⟩
  | some binding =>
    obtain ⟨property, field, found⟩ := binding
    constructor
    · rintro ⟨key', hmem, hproperty, hfield, hnull, hvalue⟩
      cases hkey.symm.trans hmem
      exact ⟨found, hvalue, hnull, by rw [← hproperty, ← hfield]⟩
    · rintro ⟨own, hvalue, hnull, ⟨⟩⟩
      exact ⟨key, hkey, rfl, rfl, hnull, hvalue⟩

end EntityMetadata

namespace Partition

variable {m : EntityMetadata} {partition : Option PartitionBinding}

/-- **The partition of a document has the value that the document has for the partition key.** -/
theorem ofDocument_eq_ok_iff {document : Document} :
    ofDocument m document = .ok partition ↔ m.Places (m.partitionValue? document) partition := by
  cases hkey : m.partitionKey with
  | none =>
    rw [EntityMetadata.places_of_unpartitioned hkey]
    simp [ofDocument, hkey, eq_comm]
  | some key =>
    rw [EntityMetadata.places_of_partitioned hkey, EntityMetadata.partitionValue?, hkey,
      Option.bind_some]
    cases hfield : document.field? (m.documentField key) with
    | none => simp [ofDocument, hkey, hfield]
    | some own =>
      by_cases hnull : own.isNull = true
      · simp [ofDocument, hkey, hfield, hnull, Option.filter_some]
      · have hown : ofDocument m document
            = .ok (some ⟨key.dotted, m.documentField key, own⟩) := by
          simp [ofDocument, hkey, hfield, hnull, Option.filter_some]
        rw [Bool.not_eq_true] at hnull
        rw [hown, Except.ok.injEq]
        constructor
        · rintro rfl
          exact ⟨own, rfl, hnull, rfl⟩
        · rintro ⟨_, ⟨⟩, -, rfl⟩
          rfl

/-- The partition of the predicate that a value is asked for with has just this value. -/
theorem places_of_require_pin {value : Option Json}
    (h : require m ⟨.and, match m.partitionKey, value with
      | some key, some value => [{
          property := key, field := m.documentField key, operator := .equal, ignoreCase := false
          values := [value] }]
      | _, _ => []⟩ = .ok partition) : m.Places value partition := by
  cases hkey : m.partitionKey with
  | none =>
    rw [EntityMetadata.places_of_unpartitioned hkey]
    simp [require, EntityMetadata.isPartitioned, hkey] at h
    exact h.symm
  | some key =>
    rw [EntityMetadata.places_of_partitioned hkey]
    rw [hkey] at h
    cases value with
    | none => simp [require, EntityMetadata.isPartitioned, resolve?, agreed?, hkey] at h
    | some own =>
      by_cases hnull : own.isNull = true
      · simp [require, EntityMetadata.isPartitioned, resolve?, pinned?, Predicate.literal?, agreed?,
          Option.filter_some, hkey, hnull] at h
      · rw [Bool.not_eq_true] at hnull
        dsimp only at h
        rw [require_pin hkey hnull] at h
        exact ⟨own, rfl, hnull, (Except.ok.inj h).symm⟩

end Partition

/-! ## Removals by query -/

namespace EntityMetadata

/-- The call removes the stored copy of a document: by its own identifier, in its own partition. -/
def Removes (m : EntityMetadata) (document : Document) (call : StoreCall) : Prop :=
  ∃ id partition, Document.id m document = .ok id ∧
    m.Places (m.partitionValue? document) partition ∧
    call = .pointDelete m.collection id partition

/-- Documents are removed one after the other, up to some point, and nothing else is asked. -/
def Clears (m : EntityMetadata) (documents : List Document) (asked : List Exchange) : Prop :=
  ∃ removed, removed <+: documents ∧
    List.Forall₂ (fun document exchange => m.Removes document exchange.call) removed asked

/-- Documents are searched for, and what the store has returned is removed. -/
def Sweeps (m : EntityMetadata) (found : List Document) (asked : List Exchange) : Prop :=
  ∃ searches removals, asked = searches ++ removals ∧ Searches searches ∧
    found = returned searches ∧ m.Clears found removals

variable {m : EntityMetadata} {documents : List Document} {asked : List Exchange}

theorem clears_nil (m : EntityMetadata) (documents : List Document) : m.Clears documents [] :=
  ⟨[], List.nil_prefix, .nil⟩

theorem Clears.cons {document : Document} {exchange : Exchange}
    (hfirst : m.Removes document exchange.call) (h : m.Clears documents asked) :
    m.Clears (document :: documents) (exchange :: asked) := by
  obtain ⟨removed, hremoved, hasked⟩ := h
  exact ⟨document :: removed, List.cons_prefix_cons.mpr ⟨rfl, hremoved⟩, .cons hfirst hasked⟩

/-- Each removal is that of one of the documents. -/
theorem Clears.exists_removes (h : m.Clears documents asked) {exchange : Exchange}
    (hmem : exchange ∈ asked) : ∃ document ∈ documents, m.Removes document exchange.call := by
  obtain ⟨removed, hremoved, hasked⟩ := h
  obtain ⟨hlength, heach⟩ := List.forall₂_iff_get.mp hasked
  obtain ⟨i, rfl⟩ := List.mem_iff_get.mp hmem
  have hi : i < removed.length := by
    rw [hlength]
    exact i.isLt
  exact ⟨removed.get ⟨i, hi⟩, hremoved.subset (List.get_mem _ _), heach i hi i.isLt⟩

/-- A search that removes nothing. -/
theorem sweeps_of_searches (m : EntityMetadata) (h : Searches asked) :
    m.Sweeps (returned asked) asked :=
  ⟨asked, [], (List.append_nil asked).symm, h, rfl, m.clears_nil _⟩

end EntityMetadata

namespace Engine

open EngineM (Asks OnlySearches)

variable {σ α β : Type} (e : Engine σ) {session : Session (σ × List Exchange)}

/-- Planning asks nothing. -/
theorem asks_of_plans {e : Engine (σ × List Exchange)} {work : EngineM (σ × List Exchange) α}
    {next : α → EngineM (σ × List Exchange) β} {Q : List Exchange → Except QueryError β → Prop}
    (hwork : e.Plans work session) (hfail : ∀ error, Q [] (.error error))
    (hnext : ∀ a later, work.runOn session = (.ok a, later) → (next a).Asks later Q) :
    (work >>= next).Asks session Q :=
  .behind (onlyPlanned_of_chain hwork).store hfail hnext

/-- A check asks nothing. -/
theorem asks_of_check {e : Engine (σ × List Exchange)} {method : String} {outcome : Except QueryError α}
    {next : α → EngineM (σ × List Exchange) β} {Q : List Exchange → Except QueryError β → Prop}
    (hfail : ∀ error, Q [] (.error error))
    (hnext : ∀ a later, outcome = .ok a → (next a).Asks later Q) :
    (e.check method outcome >>= next).Asks session Q := by
  refine .behind ?_ hfail ?_
  · obtain ⟨checked, hcheck, hkept⟩ := e.runOn_check method outcome session
    rw [hcheck]
    exact hkept.store
  · intro a later hcheck
    exact hnext a later (e.eq_ok_of_check hcheck)

/-- A document that is removed is removed where it lies. If its key cannot be read, nothing is asked. -/
theorem asks_deleteFound (document : Document) :
    (e.witnessed.deleteFound e.metadata.collection document).Asks session fun asked outcome =>
      (asked = [] ∧ failure? outcome ≠ none) ∨
        ∃ exchange, asked = [exchange] ∧ e.metadata.Removes document exchange.call := by
  refine .behind_ofExcept (fun _ => .inl ⟨rfl, nofun⟩) ?_
  intro id hid
  refine .behind_ofExcept (fun _ => .inl ⟨rfl, nofun⟩) ?_
  intro partition hpartition
  refine (EngineM.asksFor_pointDelete e.store e.metadata.collection id partition).mono ?_
  rintro _ _ ⟨answer, rfl⟩
  exact .inr ⟨_, rfl, id, partition, hid, Partition.ofDocument_eq_ok_iff.mp hpartition, rfl⟩

/-- **A run of removals removes each document where it lies.** -/
theorem asks_deleteEach (documents : List Document) :
    (e.witnessed.deleteEach e.metadata.collection documents).Asks session fun asked _ =>
      e.metadata.Clears documents asked := by
  induction documents generalizing session with
  | nil => exact EngineM.asks_nothing rfl (e.metadata.clears_nil [])
  | cons document rest ih =>
    refine (e.asks_deleteFound document).bind ?_ ?_
    · rintro asked error (⟨rfl, -⟩ | ⟨exchange, rfl, hremoves⟩)
      · exact e.metadata.clears_nil _
      · exact (e.metadata.clears_nil rest).cons hremoves
    · rintro asked deleted later - (⟨-, hfailed⟩ | ⟨exchange, rfl, hremoves⟩)
      · exact absurd rfl hfailed
      · exact (ih.before fun _ _ => rfl).mono fun _ _ h => h.cons hremoves

/-- A removal by query removes what it has found, if it has found all. -/
theorem asks_deleteMatches {query : Query} (hcollection : query.collection = e.metadata.collection) :
    (e.witnessed.deleteMatches query).Asks session fun asked _ =>
      Searches asked ∨ ∃ found gathered,
        (e.witnessed.gather query).runOn session = (.ok found, gathered) ∧
        e.metadata.Sweeps found asked := by
  have hgathers : (e.witnessed.gather query).Finds session id := Pages.finds_collect e.store _ session
  refine hgathers.bind (fun _ _ h => .inl h.1) ?_
  intro searches found gathered hgather hfound
  rw [hcollection]
  refine ((e.asks_deleteEach found).before fun _ _ => rfl).mono ?_
  intro removals _ hclears
  exact .inr ⟨found, gathered, hgather, searches, removals, rfl, hfound.1, hfound.2 found rfl, hclears⟩

/-- What a removal by method name asks that goes through: it removes what the query of the call has found,
and its predicates pin a partition. -/
def SweepsPlanned (session : Session (σ × List Exchange)) (method : String) (call : Call)
    (asked : List Exchange) : Prop :=
  ∃ query pinned gathering found gathered, e.witnessed.planned session method call = .ok query ∧
    Partition.require e.metadata query.tree = .ok pinned ∧
    (e.witnessed.gather query).runOn gathering = (.ok found, gathered) ∧ e.metadata.Sweeps found asked

/-- Behind the check of its predicates, a removal by method name removes what it finds. -/
theorem asks_checked {method : String} {call : Call} {query : Query}
    {before : Session (σ × List Exchange)} {pinned : Option PartitionBinding}
    (hplanned : e.witnessed.planned before method call = .ok query)
    (hrequire : Partition.require e.metadata query.tree = .ok pinned) :
    (e.witnessed.deleteMatches query).Asks session fun asked _ =>
      Searches asked ∨ e.SweepsPlanned before method call asked := by
  have hcollection : query.collection = e.metadata.collection :=
    e.witnessed.collection_of_planned hplanned
  refine (e.asks_deleteMatches hcollection).mono ?_
  rintro asked _ (hsearches | ⟨found, gathered, hgather, hsweeps⟩)
  · exact .inl hsearches
  · exact .inr ⟨query, pinned, session, found, gathered, hplanned, hrequire, hgather, hsweeps⟩

theorem asks_delete (method : String) (call : Call) :
    (e.witnessed.delete method call).Asks session fun asked _ =>
      Searches asked ∨ e.SweepsPlanned session method call asked := by
  refine asks_of_plans (e.witnessed.plans_assembleFor method call session .delete)
    (fun _ => .inl .nil) ?_
  intro query assembled hassemble
  obtain ⟨_, hagain, -⟩ := e.witnessed.runOn_assembleFor .delete method call session
  rw [hassemble] at hagain
  obtain ⟨hplanned, -⟩ := e.witnessed.plannedFor_eq_ok_iff.mp (Prod.mk.inj hagain).1.symm
  refine asks_of_check (fun _ => .inl .nil) ?_
  intro pinned checked hrequire
  exact e.asks_checked hplanned hrequire

/-- What a call does with its query is a search, unless it removes what it finds. -/
theorem asks_act (method : String) {call : Call} {query : Query}
    {before : Session (σ × List Exchange)}
    (hplanned : e.witnessed.planned before method call = .ok query) (action : Action) :
    (e.witnessed.act method query action).Asks session fun asked _ =>
      Searches asked ∨ e.SweepsPlanned before method call asked := by
  have hsearch : ∀ {γ : Type} {work : EngineM (σ × List Exchange) γ} (f : γ → Outcome Document),
      work.OnlySearches session → (do return f (← work) : EngineM _ _).Asks session fun asked _ =>
        Searches asked ∨ e.SweepsPlanned before method call asked := by
    intro γ work f h
    exact (h.before fun _ _ => rfl).mono fun _ _ h => .inl h
  cases action with
  | find => exact hsearch .found (EngineM.finds_fetchPage e.store query).onlySearches
  | «exists» => exact hsearch .exists (EngineM.onlySearches_probe e.store query)
  | count => exact hsearch .count (EngineM.onlySearches_countMatches e.store query)
  | delete =>
    refine asks_of_check (fun _ => .inl .nil) ?_
    intro pinned checked hrequire
    exact (e.asks_checked hplanned hrequire).before fun _ _ => rfl

theorem asks_invoke (method : String) (call : Call) :
    (e.witnessed.invoke method call).Asks session fun asked _ =>
      Searches asked ∨ e.SweepsPlanned session method call asked := by
  obtain ⟨later, hundisturbed, hinvoke⟩ := e.witnessed.runOn_invoke method call session
  cases hplanned : e.witnessed.planned session method call with
  | error error =>
    rw [hplanned] at hinvoke
    exact .of_eq hinvoke (congrArg (·.2) hundisturbed.store) (.inl .nil)
  | ok query =>
    rw [hplanned] at hinvoke
    have hact : (e.witnessed.act method query query.action).Asks later fun asked _ =>
        Searches asked ∨ e.SweepsPlanned session method call asked :=
      e.asks_act method hplanned query.action
    obtain ⟨asked, htrace, hasked⟩ := hact
    rw [hundisturbed.store] at htrace
    rw [Asks, hinvoke]
    exact ⟨asked, htrace, hasked⟩

end Engine

end DerivedQuery
