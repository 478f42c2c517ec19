import DerivedQuery.Proofs.Engine.Points
import DerivedQuery.Proofs.Engine.View
import DerivedQuery.Proofs.Store.Replay

/-!
# One element after the other

Work on one element asks at most one call, which is about the element; if the work succeeds, the call has
been answered (`Attempt`). Work that goes through elements does so in their order, and behind the first one
that fails nothing is asked (`InOrder`). A run of removals goes through its documents this way
(`Engine.asks_deleteEach_inOrder`), and so does whatever goes through a list with work on each element
(`EngineM.asks_mapM_inOrder`, `EngineM.asks_forM_inOrder`).
-/

namespace DerivedQuery

/-- What work on one element asks, and the failure that it ends with. -/
inductive Attempt (About : StoreCall → Prop) : List Exchange → Option QueryError → Prop where
  /-- Nothing is asked for an element that cannot be worked on. -/
  | refused (error : QueryError) : Attempt About [] (some error)
  /-- The call fails, or what comes behind its answer. -/
  | failed {exchange : Exchange} (h : About exchange.call) (error : QueryError) :
      Attempt About [exchange] (some error)
  | answered {call : StoreCall} (h : About call) (answer : call.Answer) :
      Attempt About [⟨call, .ok answer⟩] none

/-- What work asks that goes through elements in their order, up to the first failure. -/
inductive InOrder {α : Type} (About : α → StoreCall → Prop) :
    List α → List Exchange → Option QueryError → Prop where
  | done : InOrder About [] [] none
  | step {element : α} {rest : List α} {asked more : List Exchange} {failure : Option QueryError}
      (h : Attempt (About element) asked none) (hrest : InOrder About rest more failure) :
      InOrder About (element :: rest) (asked ++ more) failure
  | stop {element : α} {asked : List Exchange} {error : QueryError}
      (h : Attempt (About element) asked (some error)) (rest : List α) :
      InOrder About (element :: rest) asked (some error)

theorem Attempt.about {About : StoreCall → Prop} {asked : List Exchange} {failure : Option QueryError}
    (h : Attempt About asked failure) : ∀ exchange ∈ asked, About exchange.call := by
  cases h with
  | refused => exact List.forall_mem_nil _
  | failed h => exact List.forall_mem_singleton.mpr h
  | answered h => exact List.forall_mem_singleton.mpr h

theorem Attempt.imp {About About' : StoreCall → Prop} {asked : List Exchange}
    {failure : Option QueryError} (h : Attempt About asked failure)
    (himp : ∀ call, About call → About' call) : Attempt About' asked failure := by
  cases h with
  | refused error => exact .refused error
  | failed h error => exact .failed (himp _ h) error
  | answered h answer => exact .answered (himp _ h) answer

/-- All calls are about the elements. -/
theorem InOrder.exists_about {α : Type} {About : α → StoreCall → Prop} {elements : List α}
    {asked : List Exchange} {failure : Option QueryError} (h : InOrder About elements asked failure) :
    ∀ exchange ∈ asked, ∃ element ∈ elements, About element exchange.call := by
  induction h with
  | done => exact List.forall_mem_nil _
  | @step element rest asked more failure h _ ih =>
    intro exchange hmem
    rcases List.mem_append.mp hmem with hmem | hmem
    · exact ⟨element, List.mem_cons_self, h.about exchange hmem⟩
    · obtain ⟨other, hother, habout⟩ := ih exchange hmem
      exact ⟨other, List.mem_cons_of_mem element hother, habout⟩
  | @stop element asked error h rest =>
    intro exchange hmem
    exact ⟨element, List.mem_cons_self, h.about exchange hmem⟩

namespace EngineM

variable {σ α β : Type} {work : EngineM (σ × List Exchange) α} {next : α → EngineM (σ × List Exchange) β}
  {session : Session (σ × List Exchange)}

/-! ## Work on one element -/

/-- The work is an attempt to make one call. -/
abbrev Attempts (work : EngineM (σ × List Exchange) α) (session : Session (σ × List Exchange))
    (About : StoreCall → Prop) : Prop :=
  work.Asks session fun asked outcome => Attempt About asked (failure? outcome)

theorem attempts_ask (store : DocumentStore σ) {About : StoreCall → Prop} {call : StoreCall}
    (h : About call) : (ask store.witnessed call).Attempts session About := by
  have hask := runOn_ask store.witnessed call session
  rcases hanswer : store.witnessed.answer call session.store with ⟨error | answer, state⟩
  · rw [hanswer] at hask
    have htrace : state.2 = [⟨call, .error error⟩].reverse ++ session.store.2 :=
      DocumentStore.exchanges_answer hanswer
    exact .of_eq hask htrace (.failed h _)
  · rw [hanswer] at hask
    have htrace : state.2 = [⟨call, .ok answer⟩].reverse ++ session.store.2 :=
      DocumentStore.exchanges_answer hanswer
    exact .of_eq hask htrace (.answered h answer)

/-- What comes behind the call asks nothing, but may fail. -/
theorem Attempts.before {About : StoreCall → Prop} (hwork : work.Attempts session About)
    (hnext : ∀ a later, ((next a).runOn later).2.store = later.store) :
    (work >>= next).Attempts session About := by
  refine hwork.bind (fun _ _ hasked => hasked) ?_
  intro asked a later _ hasked
  refine asks_nothing (hnext a later) ?_
  rw [List.append_nil]
  cases hasked with
  | answered h answer =>
    cases ((next a).runOn later).1 with
    | error error => exact .failed h error
    | ok b => exact .answered h answer

theorem attempts_pointDelete (store : DocumentStore σ) {About : StoreCall → Prop}
    {collection id : String} {partition : Option PartitionBinding}
    (h : About (.pointDelete collection id partition)) :
    (pointDelete store.witnessed collection id partition).Attempts session About := by
  refine (attempts_ask store h).before ?_
  intro deleted later
  cases deleted with
  | false => rfl
  | true => rfl

/-! ## Work on many elements -/

/-- The work goes through the elements in their order. -/
abbrev GoesThrough {γ : Type} (work : EngineM (σ × List Exchange) α)
    (session : Session (σ × List Exchange)) (About : γ → StoreCall → Prop) (elements : List γ) : Prop :=
  work.Asks session fun asked outcome => InOrder About elements asked (failure? outcome)

variable {γ : Type} {About : γ → StoreCall → Prop} {elements : List γ}

theorem goesThrough_nil (a : α) :
    (pure a : EngineM (σ × List Exchange) α).GoesThrough session About [] :=
  asks_nothing rfl .done

/-- Behind an element that succeeds, the work goes through the rest. -/
theorem GoesThrough.cons {element : γ} {rest : List γ} (hwork : work.Attempts session (About element))
    (hnext : ∀ a later, (next a).GoesThrough later About rest) :
    (work >>= next).GoesThrough session About (element :: rest) := by
  refine hwork.bind (fun _ _ hasked => .stop hasked rest) ?_
  intro asked a later _ hasked
  exact (hnext a later).mono fun _ _ hmore => .step hasked hmore

/-- What comes behind the last element asks nothing and does not fail. -/
theorem GoesThrough.before (hwork : work.GoesThrough session About elements)
    (hnext : ∀ a later, ∃ b done, (next a).runOn later = (.ok b, done) ∧ done.store = later.store) :
    (work >>= next).GoesThrough session About elements := by
  refine hwork.bind (fun _ _ hasked => hasked) ?_
  intro asked a later _ hasked
  obtain ⟨b, done, hrun, hstore⟩ := hnext a later
  refine .of_eq hrun (congrArg (·.2) hstore : done.store.2 = [].reverse ++ later.store.2) ?_
  rw [List.append_nil]
  exact hasked

/-- **Work on each element of a list goes through the list.** -/
theorem goesThrough_mapM {f : γ → EngineM (σ × List Exchange) α}
    (hstep : ∀ element session, (f element).Attempts session (About element)) (elements : List γ) :
    (elements.mapM f).GoesThrough session About elements := by
  induction elements generalizing session with
  | nil => exact goesThrough_nil []
  | cons element rest ih =>
    rw [List.mapM_cons]
    exact .cons (hstep element session) fun a _ => ih.before fun _ _ => ⟨_, _, rfl, rfl⟩

theorem goesThrough_forM {f : γ → EngineM (σ × List Exchange) Unit}
    (hstep : ∀ element session, (f element).Attempts session (About element)) (elements : List γ) :
    (elements.forM f).GoesThrough session About elements := by
  induction elements generalizing session with
  | nil => exact goesThrough_nil ()
  | cons element rest ih =>
    rw [List.forM]
    exact .cons (hstep element session) fun _ _ => ih

end EngineM

/-! ## Documents -/

namespace EntityMetadata

/-- The call adds a document, in its own partition. -/
def Adds (m : EntityMetadata) (document : Document) (call : StoreCall) : Prop :=
  ∃ partition, m.Places (m.partitionValue? document) partition ∧
    call = .upsert m.collection document partition

theorem Adds.spares {m : EntityMetadata} {document : Document} {call : StoreCall}
    (h : m.Adds document call) : call.Spares := by
  obtain ⟨partition, hplaces, rfl⟩ := h
  exact StoreCall.spares_upsert (Partition.ofDocument_eq_ok_iff.mpr hplaces) m.collection

/-- An addition removes nothing. -/
theorem Adds.removes_eq_false {m : EntityMetadata} {document : Document} {exchange : Exchange}
    (h : m.Adds document exchange.call) : exchange.removes = false := by
  obtain ⟨call, answer⟩ := exchange
  obtain ⟨partition, -, rfl⟩ := h
  rfl

theorem Removes.clearsAt {m : EntityMetadata} {document : Document} {call : StoreCall}
    (h : m.Removes document call) : call.ClearsAt m.collection := by
  obtain ⟨id, partition, -, -, rfl⟩ := h
  exact .inr ⟨id, partition, rfl⟩

end EntityMetadata

namespace Engine

variable {σ : Type} (e : Engine σ) {session : Session (σ × List Exchange)}

theorem attempts_upsert (document : Document) :
    (e.witnessed.upsert document).Attempts session (e.metadata.Adds document) := by
  refine .behind_ofExcept (fun error => .refused error) ?_
  intro partition hpartition
  exact EngineM.attempts_ask e.store ⟨partition, Partition.ofDocument_eq_ok_iff.mp hpartition, rfl⟩

theorem attempts_deleteFound (document : Document) :
    (e.witnessed.deleteFound e.metadata.collection document).Attempts session
      (e.metadata.Removes document) := by
  refine .behind_ofExcept (fun error => .refused error) ?_
  intro id hid
  refine .behind_ofExcept (fun error => .refused error) ?_
  intro partition hpartition
  exact EngineM.attempts_pointDelete e.store
    ⟨id, partition, hid, Partition.ofDocument_eq_ok_iff.mp hpartition, rfl⟩

/-- Removing the stored copy of a document fails if there is none. -/
theorem attempts_deleteDocument (document : Document) :
    (e.witnessed.deleteDocument document).Attempts session (e.metadata.Removes document) := by
  refine .behind_ofExcept (fun error => .refused error) ?_
  intro id hid
  refine asks_of_check (fun error => .refused error) ?_
  intro partition _ hpartition
  refine EngineM.Attempts.before (EngineM.attempts_pointDelete e.store
    ⟨id, partition, hid, Partition.ofDocument_eq_ok_iff.mp hpartition, rfl⟩) ?_
  intro deleted later
  cases deleted with
  | false => rfl
  | true => rfl

/-- **A run of removals goes through its documents.** -/
theorem goesThrough_deleteEach (documents : List Document) :
    (e.witnessed.deleteEach e.metadata.collection documents).GoesThrough session e.metadata.Removes
      documents := by
  induction documents generalizing session with
  | nil => exact EngineM.goesThrough_nil 0
  | cons document rest ih =>
    exact .cons (e.attempts_deleteFound document) fun _ _ => ih.before fun _ _ => ⟨_, _, rfl, rfl⟩

end Engine

end DerivedQuery
