import DerivedQuery.Proofs.Engine.Fleet
import DerivedQuery.Proofs.Engine.Removals

/-!
# Calls about one document

Where the value for the partition comes from depends on the request: it is given, or it is that of the
document that is added or removed (`Request.Points`). Each request is shown to ask about no other
documents once (`Engine.asks_serve`), and so does a run of requests and steps of walks, over any stores.

Over a store in memory the documents that a removal by method name collects lie in the partition that
its predicates pin, so all its removals name this one (`Engine.removals_pinned`).
-/

namespace DerivedQuery

/-! ## Requests -/

/-- What a request asks about documents. One that is handed a document, or an identifier and a value,
names the partition of just this document or with just this value. A removal by query sweeps what it
finds. All other requests only search. -/
def Request.Points (m : EntityMetadata) : Request → List Exchange → Prop
  | .pointRead id value, asked => ∀ exchange ∈ asked, ∃ partition,
      m.Places value partition ∧ exchange.call = .pointRead m.collection id partition
  | .pointDelete id value, asked => ∀ exchange ∈ asked, ∃ partition,
      m.Places value partition ∧ exchange.call = .pointDelete m.collection id partition
  | .deleteDocument document, asked => ∀ exchange ∈ asked, m.Removes document exchange.call
  | .upsert document, asked => ∀ exchange ∈ asked, ∃ partition,
      m.Places (m.partitionValue? document) partition ∧
      exchange.call = .upsert m.collection document partition
  | .delete .., asked | .invoke .., asked | .deleteAll, asked => ∃ found, m.Sweeps found asked
  | _, asked => Searches asked

section Points

variable {m : EntityMetadata} {request : Request} {asked : List Exchange}

theorem EntityMetadata.Removes.placed {document : Document} {call : StoreCall}
    (h : m.Removes document call) {partition : Option PartitionBinding}
    (hpartition : call.partition? = some partition) :
    m.Places (m.partitionValue? document) partition := by
  obtain ⟨id, own, -, hplaces, rfl⟩ := h
  cases hpartition
  exact hplaces

theorem EntityMetadata.Sweeps.exists_removes {found : List Document} (h : m.Sweeps found asked)
    {exchange : Exchange} (hmem : exchange ∈ asked) {partition : Option PartitionBinding}
    (hpartition : exchange.call.partition? = some partition) :
    ∃ document ∈ found, m.Removes document exchange.call := by
  obtain ⟨searches, removals, rfl, hsearches, -, hclears⟩ := h
  rcases List.mem_append.mp hmem with hmem | hmem
  · cases hpartition.symm.trans (hsearches exchange hmem)
  · exact hclears.exists_removes hmem

/-- **Every call about one document names the partition of the entity.** -/
theorem Request.Points.placed (h : request.Points m asked) :
    ∀ exchange ∈ asked, ∀ partition ∈ exchange.call.partition?, ∃ value, m.Places value partition := by
  intro exchange hmem partition hpartition
  have hsearches : Searches asked → ∃ value, m.Places value partition := by
    intro h
    cases hpartition.symm.trans (h exchange hmem)
  have hsweeps : (∃ found, m.Sweeps found asked) → ∃ value, m.Places value partition := by
    rintro ⟨found, h⟩
    obtain ⟨document, -, hremoves⟩ := h.exists_removes hmem hpartition
    exact ⟨_, hremoves.placed hpartition⟩
  cases request with
  | pointRead id value =>
    obtain ⟨own, hplaces, hcall⟩ := h exchange hmem
    rw [hcall] at hpartition
    cases hpartition
    exact ⟨value, hplaces⟩
  | pointDelete id value =>
    obtain ⟨own, hplaces, hcall⟩ := h exchange hmem
    rw [hcall] at hpartition
    cases hpartition
    exact ⟨value, hplaces⟩
  | deleteDocument document => exact ⟨_, (h exchange hmem).placed hpartition⟩
  | upsert document =>
    obtain ⟨own, hplaces, hcall⟩ := h exchange hmem
    rw [hcall] at hpartition
    cases hpartition
    exact ⟨_, hplaces⟩
  | delete | invoke | deleteAll => exact hsweeps h
  | _ => exact hsearches h

end Points

namespace Engine

variable {σ : Type} (e : Engine σ) {session : Session (σ × List Exchange)}

theorem asks_pointRead (id : String) (value : Option Json) :
    (e.witnessed.pointRead id value).Asks session fun asked _ =>
      Request.Points e.metadata (.pointRead id value) asked := by
  refine asks_of_check (fun _ => List.forall_mem_nil _) ?_
  intro partition _ hrequire
  refine (EngineM.asksFor_pointRead e.store e.metadata.collection id partition).mono ?_
  rintro _ _ ⟨answer, rfl⟩
  exact List.forall_mem_singleton.mpr ⟨partition, Partition.places_of_require_pin hrequire, rfl⟩

theorem asksFor_deleteOne (id : String) (partition : Option PartitionBinding) :
    (e.witnessed.deleteOne id partition).AsksFor session
      (.pointDelete e.metadata.collection id partition) := by
  refine (EngineM.asksFor_pointDelete e.store _ id partition).before ?_
  intro deleted later
  cases deleted with
  | false => rfl
  | true => rfl

theorem asks_pointDelete (id : String) (value : Option Json) :
    (e.witnessed.pointDelete id value).Asks session fun asked _ =>
      Request.Points e.metadata (.pointDelete id value) asked := by
  refine asks_of_check (fun _ => List.forall_mem_nil _) ?_
  intro partition _ hrequire
  refine (e.asksFor_deleteOne id partition).mono ?_
  rintro _ _ ⟨answer, rfl⟩
  exact List.forall_mem_singleton.mpr ⟨partition, Partition.places_of_require_pin hrequire, rfl⟩

theorem asks_deleteDocument (document : Document) :
    (e.witnessed.deleteDocument document).Asks session fun asked _ =>
      Request.Points e.metadata (.deleteDocument document) asked := by
  refine .behind_ofExcept (fun _ => List.forall_mem_nil _) ?_
  intro id hid
  refine asks_of_check (fun _ => List.forall_mem_nil _) ?_
  intro partition _ hpartition
  refine (e.asksFor_deleteOne id partition).mono ?_
  rintro _ _ ⟨answer, rfl⟩
  exact List.forall_mem_singleton.mpr
    ⟨id, partition, hid, Partition.ofDocument_eq_ok_iff.mp hpartition, rfl⟩

theorem asks_upsert (document : Document) :
    (e.witnessed.upsert document).Asks session fun asked _ =>
      Request.Points e.metadata (.upsert document) asked := by
  refine .behind_ofExcept (fun _ => List.forall_mem_nil _) ?_
  intro partition hpartition
  refine (EngineM.asksFor_ask e.store (.upsert e.metadata.collection document partition)).mono ?_
  rintro _ _ ⟨answer, rfl⟩
  exact List.forall_mem_singleton.mpr ⟨partition, Partition.ofDocument_eq_ok_iff.mp hpartition, rfl⟩

theorem asks_deleteAll :
    e.witnessed.deleteAll.Asks session fun asked _ => ∃ found, e.metadata.Sweeps found asked := by
  refine asks_of_plans (e.witnessed.plans_assemble "deleteAll" {} session)
    (fun _ => ⟨_, e.metadata.sweeps_of_searches .nil⟩) ?_
  intro query assembled hassemble
  have hplanned := e.witnessed.planned_of_assemble hassemble
  have hcollection : query.collection = e.metadata.collection :=
    e.witnessed.collection_of_planned hplanned
  refine (e.asks_deleteMatches hcollection).mono ?_
  rintro asked _ (hsearches | ⟨found, _, -, hsweeps⟩)
  · exact ⟨_, e.metadata.sweeps_of_searches hsearches⟩
  · exact ⟨found, hsweeps⟩

theorem onlySearches_findByIds (ids : List String) :
    (e.witnessed.findByIds ids).OnlySearches session := by
  rw [findByIds]
  split
  · exact EngineM.asks_nothing rfl .nil
  · refine asks_of_plans (e.witnessed.plans_findAll e.witnessed.findByIdsMethod _ session)
      (fun _ => .nil) ?_
    intro pages searched _
    exact (Pages.finds_collect e.store pages searched).onlySearches

/-- **A request asks about no documents but its own, each where it lies.** -/
theorem asks_serve (session : Session (σ × List Exchange)) (request : Request) :
    (e.witnessed.serve request).Asks session fun asked _ => request.Points e.metadata asked := by
  have hsweeps : ∀ method call asked, Searches asked ∨ e.SweepsPlanned session method call asked →
      ∃ found, e.metadata.Sweeps found asked := by
    rintro method call asked (hsearches | ⟨_, _, _, found, _, _, _, _, hsweeps⟩)
    · exact ⟨_, e.metadata.sweeps_of_searches hsearches⟩
    · exact ⟨found, hsweeps⟩
  have hassembles : ∀ {γ : Type} (action : Action) (method : String) (call : Call)
      {next : Query → EngineM (σ × List Exchange) γ},
      (∀ query later, (next query).OnlySearches later) →
      (e.witnessed.assembleFor action method call >>= next).OnlySearches session :=
    fun action method call _ hnext =>
      asks_of_plans (e.witnessed.plans_assembleFor method call session action) (fun _ => .nil)
        fun query later _ => hnext query later
  cases request with
  | prepare | assemble | render | explain =>
    exact EngineM.asks_nothing (onlyPlanned_of_chain (e.witnessed.plans_serve session rfl)).store .nil
  | findAll method call =>
    exact EngineM.asks_nothing
      (onlyPlanned_of_chain (e.witnessed.plans_findAll method call session)).store .nil
  | find method call =>
    exact hassembles .find method call fun query _ =>
      (EngineM.finds_fetchPage e.store query).onlySearches
  | hasMatch method call =>
    exact hassembles .exists method call fun query _ => EngineM.onlySearches_probe e.store query
  | count method call =>
    exact hassembles .count method call fun query _ => EngineM.onlySearches_countMatches e.store query
  | delete method call => exact (e.asks_delete method call).mono fun asked _ => hsweeps method call asked
  | invoke method call => exact (e.asks_invoke method call).mono fun asked _ => hsweeps method call asked
  | pointRead id value => exact e.asks_pointRead id value
  | pointDelete id value => exact e.asks_pointDelete id value
  | deleteDocument document => exact e.asks_deleteDocument document
  | findByIds ids => exact e.onlySearches_findByIds ids
  | upsert document => exact e.asks_upsert document
  | countAll => exact EngineM.onlySearches_countAll e.store e.metadata.collection
  | deleteAll => exact e.asks_deleteAll

end Engine

/-! ## Removals from memory -/

/-- A witnessed store shows what the store inside shows. -/
theorem DocumentStore.Reads.witnessed {σ : Type} {store : DocumentStore σ} {memory : σ → MemoryStore}
    (h : store.Reads memory) : store.witnessed.Reads (memory ·.1) where
  selected := by
    intro query state later batch hanswer document hmem
    exact h.selected (Prod.ext (Prod.mk.inj hanswer).1 rfl) document hmem
  kept query state := h.kept query state.1

/-- Documents that predicates select are removed from the partition that the predicates pin. -/
theorem EntityMetadata.Sweeps.agrees {m : EntityMetadata} {tree : PredicateTree}
    {pinned : Option PartitionBinding} {found : List Document} {asked : List Exchange}
    (h : m.Sweeps found asked) (hfound : ∀ document ∈ found, tree.holds document)
    (hrequire : Partition.require m tree = .ok pinned) :
    ∀ exchange ∈ asked, ∀ partition ∈ exchange.call.partition?,
      Option.Rel PartitionBinding.Agrees partition pinned := by
  intro exchange hmem partition hpartition
  obtain ⟨document, hdocument, hremoves⟩ := h.exists_removes hmem hpartition
  have hown := Partition.ofDocument_eq_ok_iff.mpr (hremoves.placed hpartition)
  obtain ⟨placed, hplaced, hagrees⟩ :=
    Partition.ofDocument_of_require hrequire (hfound document hdocument)
  rw [Except.ok.inj (hown.symm.trans hplaced)]
  exact hagrees

namespace Engine

variable {σ : Type} {e : Engine σ} {memory : σ → MemoryStore}

/-- **Over a memory, a removal by method name removes nothing from another partition than the one that
its predicates pin.** -/
theorem agrees_of_sweepsPlanned (h : e.store.Reads memory) {session : Session (σ × List Exchange)}
    {method : String} {call : Call} {asked : List Exchange}
    (hsweeps : e.SweepsPlanned session method call asked) :
    ∃ query pinned, e.witnessed.planned session method call = .ok query ∧
      Partition.require e.metadata query.tree = .ok pinned ∧
      ∀ exchange ∈ asked, ∀ partition ∈ exchange.call.partition?,
        Option.Rel PartitionBinding.Agrees partition pinned := by
  obtain ⟨query, pinned, _, found, _, hplanned, hrequire, hgather, hsweeps⟩ := hsweeps
  have hwitnessed : e.witnessed.store.Reads (memory ·.1) := h.witnessed
  have hfound : ∀ document ∈ found, query.tree.holds document := fun document hmem =>
    (List.mem_filter.mp (mem_of_gather hwitnessed hgather document hmem)).2
  exact ⟨query, pinned, hplanned, hrequire, hsweeps.agrees hfound hrequire⟩

theorem removals_pinned (h : e.store.Reads memory) (session : Session (σ × List Exchange))
    (method : String) (call : Call) :
    ∀ request ∈ [Request.delete method call, Request.invoke method call],
      (e.witnessed.serve request).Asks session fun asked _ => Searches asked ∨
        ∃ query pinned, e.witnessed.planned session method call = .ok query ∧
          Partition.require e.metadata query.tree = .ok pinned ∧
          ∀ exchange ∈ asked, ∀ partition ∈ exchange.call.partition?,
            Option.Rel PartitionBinding.Agrees partition pinned := by
  refine List.forall_mem_cons.mpr ⟨?_, List.forall_mem_singleton.mpr ?_⟩
  · exact (e.asks_delete method call).mono fun _ _ hasked => hasked.imp_right (agrees_of_sweepsPlanned h)
  · exact (e.asks_invoke method call).mono fun _ _ hasked => hasked.imp_right (agrees_of_sweepsPlanned h)

end Engine

/-! ## Runs -/

namespace Fleet

variable {ι σ : Type}

/-- The engine that acts. -/
def Act.engine : Act ι → ι
  | serve i _ | next i _ => i

/-- What an act asks about documents. A step of a walk only searches. -/
def Act.Points (engines : ι → Engine σ) : Act ι → List Exchange → Prop
  | serve i request, asked => request.Points (engines i).metadata asked
  | next .., asked => Searches asked

variable [DecidableEq ι] (engines : ι → Engine σ)

omit [DecidableEq ι] in
theorem Act.Points.placed {engines : ι → Engine σ} {act : Act ι} {asked : List Exchange}
    (h : act.Points engines asked) :
    ∀ exchange ∈ asked, ∀ partition ∈ exchange.call.partition?,
      ∃ value, (engines act.engine).metadata.Places value partition := by
  cases act with
  | serve i request => exact Request.Points.placed h
  | next i pages =>
    intro exchange hmem partition hpartition
    cases hpartition.symm.trans (h exchange hmem)

/-- **An act asks about no documents but its own.** -/
theorem asks_step (fleet : Fleet ι (σ × List Exchange)) (act : Act ι) :
    ∃ asked, (fleet.step (witnessed engines) act).store.2 = asked.reverse ++ fleet.store.2 ∧
      act.Points engines asked := by
  cases act with
  | serve i request =>
    obtain ⟨asked, htrace, hpoints⟩ := (engines i).asks_serve (fleet.session i) request
    exact ⟨asked, htrace, hpoints⟩
  | next i pages =>
    obtain ⟨asked, htrace, hsearches, -⟩ :=
      Pages.asks_next (engines i).store pages (fleet.session i)
    exact ⟨asked, htrace, hsearches⟩

/-- A run asks what its acts ask, one behind the other. -/
theorem asks_run (fleet : Fleet ι (σ × List Exchange)) (acts : List (Act ι)) :
    ∃ traces : List (List Exchange),
      (run (witnessed engines) fleet acts).store.2 = traces.flatten.reverse ++ fleet.store.2 ∧
      List.Forall₂ (Act.Points engines) acts traces := by
  induction acts generalizing fleet with
  | nil => exact ⟨[], rfl, .nil⟩
  | cons act acts ih =>
    obtain ⟨asked, htrace, hpoints⟩ := asks_step engines fleet act
    obtain ⟨traces, hrun, htraces⟩ := ih (fleet.step (witnessed engines) act)
    refine ⟨asked :: traces, ?_, .cons hpoints htraces⟩
    rw [List.flatten_cons, List.reverse_append, List.append_assoc, ← htrace]
    exact hrun

/-- **Calls about one document are never broadened.** Whatever the stores answer, each act of a run asks
about no documents but its own. Every call that names a partition names the one of the entity, with a
value that is not `null`, and names none if the entity has none; additions and removals of documents name
the partition of the very document. Over a store in memory a removal by method name removes nothing from
another partition than the one that its predicates pin. -/
theorem point_calls_placed (fleet : Fleet ι (σ × List Exchange)) (acts : List (Act ι)) :
    (∃ traces : List (List Exchange),
      (run (witnessed engines) fleet acts).store.2 = traces.flatten.reverse ++ fleet.store.2 ∧
      List.Forall₂ (fun act asked => act.Points engines asked ∧
        ∀ exchange ∈ asked, ∀ partition ∈ exchange.call.partition?,
          ∃ value, (engines act.engine).metadata.Places value partition) acts traces) ∧
    ∀ (m : EntityMetadata) (config : EngineConfig) (session : Session (MemoryStore × List Exchange))
      (method : String) (call : Call),
      ∀ request ∈ [Request.delete method call, Request.invoke method call],
        ((Engine.inMemory m config).witnessed.serve request).Asks session fun asked _ =>
          Searches asked ∨ ∃ query pinned,
            (Engine.inMemory m config).witnessed.planned session method call = .ok query ∧
            Partition.require m query.tree = .ok pinned ∧
            ∀ exchange ∈ asked, ∀ partition ∈ exchange.call.partition?,
              Option.Rel PartitionBinding.Agrees partition pinned := by
  constructor
  · obtain ⟨traces, hrun, htraces⟩ := asks_run engines fleet acts
    exact ⟨traces, hrun, htraces.imp fun _ _ hpoints => ⟨hpoints, hpoints.placed⟩⟩
  · intro m config session method call
    exact Engine.removals_pinned (e := Engine.inMemory m config) reads_memoryStore session method call

theorem point_calls_placed_towns :
    let e := Engine.inMemory Town.metadata {}
    let call : Call := { arguments := [.string "NO"] }
    let run := (e.witnessed.delete "deleteByCountry" call).runOn { store := (Town.store, []) }
    run.2.store.2.map (·.call.name) = ["point_delete", "point_delete", "execute"] ∧
      ∀ exchange ∈ run.2.store.2, ∀ partition ∈ exchange.call.partition?,
        ∃ binding ∈ partition, binding.field = "country" ∧ binding.value.same (.string "NO") := by
  intro e call run
  have hnames : run.2.store.2.map (·.call.name) = ["point_delete", "point_delete", "execute"] := by
    decide +kernel
  refine ⟨hnames, ?_⟩
  intro exchange hmem partition hpartition
  obtain ⟨-, hmemory⟩ := point_calls_placed (fun _ : Unit => e) { store := (Town.store, []) } []
  obtain ⟨asked, htrace, hasked⟩ := hmemory Town.metadata {} { store := (Town.store, []) }
    "deleteByCountry" call (.delete "deleteByCountry" call) List.mem_cons_self
  have hexchange : exchange ∈ asked := by
    rw [show run.2.store.2 = asked.reverse ++ [] from htrace, List.append_nil,
      List.mem_reverse] at hmem
    exact hmem
  rcases hasked with hsearches | ⟨query, pinned, hquery, hrequire, hagrees⟩
  · cases hpartition.symm.trans (hsearches exchange hexchange)
  · have hparse : Method.parse Town.metadata "deleteByCountry" = .ok ⟨"deleteByCountry", .delete, {},
        .and, [⟨⟨["country"], .string⟩, .equal, false⟩], []⟩ := by with_unfolding_all rfl
    have hplanned : e.witnessed.planned { store := (Town.store, []) } "deleteByCountry" call = .ok {
        collection := "towns", projection := "Town", action := .delete, tree := ⟨.and, [Town.norway]⟩
        order := none, page := ⟨100, none, []⟩ } := by
      rw [Engine.planned, Engine.faithful_new, show e.witnessed.metadata = Town.metadata from rfl,
        hparse]
      rfl
    cases hplanned.symm.trans hquery
    cases hrequire
    cases hagrees exchange hexchange partition hpartition with
    | some hagrees => exact ⟨_, rfl, hagrees.field, hagrees.value⟩

end Fleet

end DerivedQuery
