import DerivedQuery.Proofs.Collection.Entries
import DerivedQuery.Proofs.Engine.Request

/-!
# Names that an engine remembers

Work that has been planned parses no name any more (`EngineM.KeepsNames`). A request looks up one method
name or none (`Request.method?`), and parses it if it has not been parsed before (`Engine.LooksUp`,
`Engine.prepared_serve`). So an engine that begins with no names remembers just those that it was asked
for and that can be parsed, each once (`Engine.Remembers`).
-/

namespace DerivedQuery

/-! ## Work that parses no name -/

namespace EngineM

variable {σ α β : Type}

/-- The work leaves the names that the session remembers as they are. -/
def KeepsNames (work : EngineM σ α) : Prop :=
  ∀ session, (work.runOn session).2.prepared = session.prepared

theorem KeepsNames.bind {work : EngineM σ α} {next : α → EngineM σ β} (hwork : work.KeepsNames)
    (hnext : ∀ a, (next a).KeepsNames) : (work >>= next).KeepsNames := by
  intro session
  have hfirst := hwork session
  rw [runOn_bind]
  generalize work.runOn session = result at hfirst ⊢
  rcases result with ⟨error | a, later⟩
  · exact hfirst
  · exact (hnext a later).trans hfirst

theorem keepsNames_pure (a : α) : (pure a : EngineM σ α).KeepsNames := fun _ => rfl

theorem keepsNames_note (event : Event) (fields : List (String × String)) :
    (note event fields : EngineM σ Unit).KeepsNames := fun _ => rfl

theorem keepsNames_ofExcept (outcome : Except QueryError α) :
    (ofExcept outcome : EngineM σ α).KeepsNames := by
  intro session
  rw [runOn_ofExcept]

variable (store : DocumentStore σ)

theorem keepsNames_fetchPage (query : Query) : (fetchPage store query).KeepsNames := by
  intro session
  rw [runOn_fetchPage]
  rcases store.answer (.execute query.collection query) session.store with ⟨error | batch, state⟩
  · rfl
  · rfl

theorem keepsNames_ask (call : StoreCall) : (ask store call).KeepsNames := by
  intro session
  rw [runOn_ask]
  rcases store.answer call session.store with ⟨error | answer, state⟩
  · rfl
  · rfl

theorem keepsNames_probe (query : Query) : (probe store query).KeepsNames :=
  (keepsNames_fetchPage store _).bind fun page => keepsNames_pure (!page.items.isEmpty)

theorem keepsNames_pointRead (collection id : String) (partition : Option PartitionBinding) :
    (pointRead store collection id partition).KeepsNames :=
  (keepsNames_ask store _).bind fun found => (keepsNames_note _ _).bind fun _ => keepsNames_pure found

theorem keepsNames_pointDelete (collection id : String) (partition : Option PartitionBinding) :
    (pointDelete store collection id partition).KeepsNames := by
  intro session
  rw [pointDelete, runOn_bind, runOn_ask]
  rcases store.answer (.pointDelete collection id partition) session.store with
    ⟨error | deleted, state⟩
  · rfl
  · cases deleted <;> rfl

end EngineM

namespace Pages

open EngineM (KeepsNames)

variable {σ α : Type} (store : DocumentStore σ)

theorem prepared_next (pages : Pages) (session : Session σ) :
    ((pages.next store).run session).2.prepared = session.prepared := by
  rw [run_next]
  cases pages.cursor.nextPage pages.query.page with
  | none => rfl
  | some state =>
    have hfetch := EngineM.keepsNames_fetchPage store (pages.query.withPage state) session
    dsimp only
    generalize (EngineM.fetchPage store (pages.query.withPage state)).runOn session = result
      at hfetch ⊢
    rcases result with ⟨error | page, later⟩
    · exact hfetch
    · exact (kept_noted pages page later).prepared.trans hfetch

theorem keepsNames_drain (f : Document → Except QueryError α) (bound : Nat) (pages : Pages) :
    (drain store f bound pages).KeepsNames := by
  induction bound generalizing pages with
  | zero =>
    intro session
    rw [drain]
    split <;> rfl
  | succ bound ih =>
    intro session
    have hnext := prepared_next store pages session
    rw [runOn_drain_succ]
    generalize (pages.next store).run session = result at hnext ⊢
    rcases result with ⟨⟨_ | outcome, behind⟩, later⟩
    · exact hnext
    · have hrest : (do
          let items ← EngineM.ofExcept (outcome.bind (·.items.mapM f))
          let rest ← drain store f bound behind
          return items ++ rest : EngineM σ (List α)).KeepsNames :=
        (EngineM.keepsNames_ofExcept _).bind fun _ =>
          (ih behind).bind fun _ => EngineM.keepsNames_pure _
      exact (hrest later).trans hnext

theorem keepsNames_collect (f : Document → Except QueryError α) (pages : Pages) :
    (collect store f pages).KeepsNames :=
  fun session => keepsNames_drain store f (store.walkBound session.store) pages session

end Pages

namespace Engine

open EngineM (KeepsNames)

variable {σ : Type} (e : Engine σ)

theorem keepsNames_deleteEach (collection : String) (documents : List Document) :
    (e.deleteEach collection documents).KeepsNames := by
  induction documents with
  | nil => exact EngineM.keepsNames_pure 0
  | cons document rest ih =>
    have hfound : (e.deleteFound collection document).KeepsNames :=
      (EngineM.keepsNames_ofExcept _).bind fun _ =>
        (EngineM.keepsNames_ofExcept _).bind fun _ => EngineM.keepsNames_pointDelete _ _ _ _
    exact hfound.bind fun _ => ih.bind fun _ => EngineM.keepsNames_pure _

theorem keepsNames_deleteMatches (query : Query) : (e.deleteMatches query).KeepsNames :=
  (Pages.keepsNames_collect _ _ _).bind fun _ => (e.keepsNames_deleteEach _ _).bind fun _ =>
    (EngineM.keepsNames_note _ _).bind fun _ => EngineM.keepsNames_pure _

theorem keepsNames_check {α : Type} (method : String) (outcome : Except QueryError α) :
    (e.check method outcome).KeepsNames := by
  intro session
  obtain ⟨later, hrun, hkept⟩ := e.runOn_check method outcome session
  rw [hrun]
  exact hkept.prepared

theorem keepsNames_deleteOne (id : String) (partition : Option PartitionBinding) :
    (e.deleteOne id partition).KeepsNames := by
  refine (EngineM.keepsNames_pointDelete _ _ _ _).bind ?_
  intro deleted session
  cases deleted with
  | true => rfl
  | false => rfl

/-! ## Work that looks up one name -/

/-- The names behind a name that has been looked up. -/
def remembered (prepared : List (String × Operation)) (method : String) : List (String × Operation) :=
  match prepared.lookup method with
  | some _ => prepared
  | none =>
    match Method.parse e.metadata method with
    | .ok operation => (method, operation) :: prepared
    | .error _ => prepared

/-- A name that is looked up again is not parsed again. -/
theorem remembered_remembered (prepared : List (String × Operation)) (method : String) :
    e.remembered (e.remembered prepared method) method = e.remembered prepared method := by
  unfold remembered
  cases hknown : prepared.lookup method with
  | some operation => simp only [hknown]
  | none =>
    cases hparse : Method.parse e.metadata method with
    | ok operation => simp only [List.lookup_cons_self]
    | error error => simp only [hknown]

/-- The work looks up one name, maybe more than once. -/
def LooksUp {α : Type} (method : String) (work : EngineM σ α) : Prop :=
  ∀ session, (work.runOn session).2.prepared = e.remembered session.prepared method

section LooksUp

variable {e} {α β : Type} {method : String} {work : EngineM σ α} {next : α → EngineM σ β}

theorem LooksUp.bind (h : e.LooksUp method work) (hnext : ∀ a, (next a).KeepsNames) :
    e.LooksUp method (work >>= next) := by
  intro session
  have hfirst := h session
  rw [EngineM.runOn_bind]
  generalize work.runOn session = run at hfirst ⊢
  rcases run with ⟨error | a, later⟩
  · exact hfirst
  · exact (hnext a later).trans hfirst

theorem LooksUp.again (h : e.LooksUp method work) (hnext : ∀ a, e.LooksUp method (next a)) :
    e.LooksUp method (work >>= next) := by
  intro session
  have hfirst := h session
  rw [EngineM.runOn_bind]
  generalize work.runOn session = run at hfirst ⊢
  rcases run with ⟨error | a, later⟩
  · exact hfirst
  · refine (hnext a later).trans ?_
    rw [show later.prepared = _ from hfirst, e.remembered_remembered]

end LooksUp

variable (method : String) (call : Call)

theorem looksUp_prepare : e.LooksUp method (e.prepare method) := by
  intro session
  rw [runOn_prepare, remembered]
  cases session.prepared.lookup method with
  | some operation => rfl
  | none =>
    cases Method.parse e.metadata method with
    | ok operation => rfl
    | error error => rfl

theorem looksUp_assemble : e.LooksUp method (e.assemble method call) := by
  refine (e.looksUp_prepare method).bind fun operation => ?_
  refine (e.keepsNames_check method _).bind fun query => ?_
  exact (EngineM.keepsNames_note _ _).bind fun _ => EngineM.keepsNames_pure query

theorem looksUp_assembleFor (action : Action) : e.LooksUp method (e.assembleFor action method call) := by
  refine (e.looksUp_assemble method call).bind fun query => ?_
  split
  · exact EngineM.keepsNames_pure query
  · exact fun _ => rfl

theorem looksUp_explain : e.LooksUp method (e.explain method call) := by
  intro session
  have hassemble := e.looksUp_assemble method call session
  rw [runOn_explain]
  generalize (e.assemble method call).runOn session = run at hassemble ⊢
  rcases run with ⟨error | query, later⟩
  · exact hassemble
  · exact hassemble

theorem looksUp_find : e.LooksUp method (e.find method call) :=
  (e.looksUp_assembleFor method call .find).bind fun query => EngineM.keepsNames_fetchPage _ query

theorem looksUp_findAll : e.LooksUp method (e.findAll method call) :=
  (e.looksUp_assembleFor method call .find).bind fun _ => EngineM.keepsNames_pure _

theorem looksUp_hasMatch : e.LooksUp method (e.hasMatch method call) :=
  (e.looksUp_assembleFor method call .exists).bind fun query => EngineM.keepsNames_probe _ query

theorem looksUp_count : e.LooksUp method (e.count method call) :=
  (e.looksUp_assembleFor method call .count).bind fun query =>
    EngineM.keepsNames_ask e.store (.count query.collection (some query))

theorem looksUp_delete : e.LooksUp method (e.delete method call) :=
  (e.looksUp_assembleFor method call .delete).bind fun query =>
    (e.keepsNames_check method _).bind fun _ => e.keepsNames_deleteMatches query

theorem looksUp_deleteAll : e.LooksUp "deleteAll" e.deleteAll :=
  (e.looksUp_assemble "deleteAll" {}).bind fun query => e.keepsNames_deleteMatches query

/-- Running a call by its action looks up the same name again. -/
theorem looksUp_invoke : e.LooksUp method (e.invoke method call) := by
  refine (e.looksUp_prepare method).again fun operation => ?_
  cases operation.action with
  | find => exact (e.looksUp_find method call).bind fun _ => EngineM.keepsNames_pure _
  | «exists» => exact (e.looksUp_hasMatch method call).bind fun _ => EngineM.keepsNames_pure _
  | count => exact (e.looksUp_count method call).bind fun _ => EngineM.keepsNames_pure _
  | delete => exact (e.looksUp_delete method call).bind fun _ => EngineM.keepsNames_pure _

end Engine

/-! ## Requests -/

/-- The method name that a request looks up. -/
def Request.method? {σ : Type} (e : Engine σ) : Request → Option String
  | .prepare method | .assemble method _ | .render method _ | .explain method _ => some method
  | .find method _ | .findAll method _ | .hasMatch method _ | .count method _ => some method
  | .delete method _ | .invoke method _ => some method
  | .findByIds ids => if ids.isEmpty then none else some e.findByIdsMethod
  | .deleteAll => some "deleteAll"
  | .pointRead .. | .pointDelete .. | .deleteDocument _ | .upsert _ | .countAll => none

namespace Engine

variable {σ : Type} (e : Engine σ)

/-- **A request looks up its method name and no other.** -/
theorem prepared_serve (session : Session σ) (request : Request) :
    ((e.serve request).runOn session).2.prepared
      = (request.method? e).elim session.prepared (e.remembered session.prepared) := by
  cases request with
  | prepare method => exact e.looksUp_prepare method session
  | assemble method call => exact e.looksUp_assemble method call session
  | render method call =>
    exact (e.looksUp_assemble method call).bind (fun _ => EngineM.keepsNames_pure _) session
  | explain method call => exact e.looksUp_explain method call session
  | find method call => exact e.looksUp_find method call session
  | findAll method call => exact e.looksUp_findAll method call session
  | hasMatch method call => exact e.looksUp_hasMatch method call session
  | count method call => exact e.looksUp_count method call session
  | delete method call => exact e.looksUp_delete method call session
  | invoke method call => exact e.looksUp_invoke method call session
  | pointRead id partition =>
    exact (e.keepsNames_check _ _).bind (fun _ => EngineM.keepsNames_pointRead _ _ _ _) session
  | pointDelete id partition =>
    exact (e.keepsNames_check _ _).bind (fun _ => e.keepsNames_deleteOne id _) session
  | deleteDocument document =>
    refine (EngineM.keepsNames_ofExcept _).bind (fun id => ?_) session
    exact (e.keepsNames_check _ _).bind fun _ => e.keepsNames_deleteOne id _
  | findByIds ids =>
    rw [serve, findByIds, Request.method?]
    split
    · rfl
    · exact (e.looksUp_findAll e.findByIdsMethod _).bind
        (fun pages => Pages.keepsNames_collect _ _ pages) session
  | upsert document =>
    refine (EngineM.keepsNames_ofExcept _).bind (fun binding => ?_) session
    exact EngineM.keepsNames_ask e.store (.upsert e.metadata.collection document binding)
  | countAll => exact EngineM.keepsNames_ask e.store (.count e.metadata.collection none) session
  | deleteAll => exact e.looksUp_deleteAll session

/-- Of the names that an engine was asked for it remembers those that can be parsed, each once. -/
structure Remembers (asked : List String) (prepared : List (String × Operation)) : Prop where
  nodup : (prepared.map (·.1)).Nodup
  mem_iff : ∀ method operation, (method, operation) ∈ prepared ↔
    method ∈ asked ∧ Method.parse e.metadata method = .ok operation

namespace Remembers

variable {e} {asked : List String} {prepared : List (String × Operation)} {method : String}

theorem nil : e.Remembers [] [] := ⟨List.nodup_nil, by simp⟩

theorem mem_remembered (h : e.Remembers asked prepared) {name : String} {operation : Operation} :
    (name, operation) ∈ e.remembered prepared method ↔
      (name, operation) ∈ prepared ∨
        name = method ∧ Method.parse e.metadata method = .ok operation := by
  unfold remembered
  cases hknown : prepared.lookup method with
  | some known =>
    have hasked := ((h.mem_iff method known).mp (Entries.mem_of_lookup_eq_some hknown)).1
    refine ⟨.inl, ?_⟩
    rintro (hmem | ⟨rfl, hparse⟩)
    · exact hmem
    · exact (h.mem_iff name operation).mpr ⟨hasked, hparse⟩
  | none =>
    cases hparse : Method.parse e.metadata method with
    | error error => simp
    | ok parsed => simp [or_comm, eq_comm]

theorem nodup_remembered (h : e.Remembers asked prepared) :
    ((e.remembered prepared method).map (·.1)).Nodup := by
  unfold remembered
  split
  · exact h.nodup
  · next hnew =>
    split
    · refine List.nodup_cons.mpr ⟨fun hmem => ?_, h.nodup⟩
      obtain ⟨entry, hentry, rfl⟩ := List.mem_map.mp hmem
      have hdiffers := List.lookup_eq_none_iff.mp hnew entry hentry
      simp at hdiffers
    · exact h.nodup

/-- **Looking up a name keeps what is remembered, and adds the name if it can be parsed.** -/
theorem step (h : e.Remembers asked prepared) (method : String) :
    e.Remembers (asked ++ [method]) (e.remembered prepared method) where
  nodup := h.nodup_remembered
  mem_iff name operation := by
    rw [h.mem_remembered, h.mem_iff, List.mem_append, List.mem_singleton, or_and_right]
    refine or_congr_right (and_congr_right ?_)
    rintro rfl
    rfl

end Remembers

end Engine

end DerivedQuery
