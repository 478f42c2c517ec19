import DerivedQuery.Engine.Basic
import DerivedQuery.Proofs.Failure
import DerivedQuery.Proofs.Method.Clauses

/-!
# Refusals

Parsing a name, checking an operation, resolving an order, binding arguments and asking for a partition
look at the call alone, and all that can go wrong with them is that the call is refused
(`OnlyRefuses`). What a document says of itself is looked at later, yet a document that does not name
its partition is refused with the same error as predicates that do not (`Partition.Unplaced`).
-/

namespace DerivedQuery

/-- All that can go wrong is a refusal: it is found by looking at the call alone. -/
def OnlyRefuses {α : Type} (outcome : Except QueryError α) : Prop :=
  ∀ error, outcome = .error error → error.isValidation

namespace OnlyRefuses

variable {α β : Type}

theorem ok (a : α) : OnlyRefuses (.ok a) := nofun

theorem error {error : QueryError} (h : error.isValidation) :
    OnlyRefuses (.error error : Except QueryError α) := by
  rintro _ ⟨⟩
  exact h

theorem bind {step : Except QueryError α} {next : α → Except QueryError β} (h : OnlyRefuses step)
    (hnext : ∀ a, OnlyRefuses (next a)) : OnlyRefuses (step >>= next) := by
  cases step with
  | error found => exact error (h found rfl)
  | ok a => exact hnext a

theorem map {step : Except QueryError α} (f : α → β) (h : OnlyRefuses step) :
    OnlyRefuses (step.map f) := by
  cases step with
  | error found => exact error (h found rfl)
  | ok a => exact ok (f a)

theorem mapM {step : α → Except QueryError β} (h : ∀ a, OnlyRefuses (step a)) (list : List α) :
    OnlyRefuses (list.mapM step) := by
  induction list with
  | nil => exact ok []
  | cons a rest ih =>
    rw [List.mapM_cons]
    exact (h a).bind fun _ => ih.bind fun _ => ok _

theorem forM {step : α → Except QueryError PUnit} (h : ∀ a, OnlyRefuses (step a)) (list : List α) :
    OnlyRefuses (list.forM step) := by
  induction list with
  | nil => exact ok _
  | cons a rest ih =>
    exact (h a).bind fun _ => ih

end OnlyRefuses

namespace Method

variable (m : EntityMetadata) (method : String)

theorem onlyRefuses_parseCriterion (allIgnoreCase : Bool) (text : List Char) :
    OnlyRefuses (parseCriterion m method allIgnoreCase text) := by
  unfold parseCriterion
  dsimp only
  split
  · exact .error rfl
  · split
    · exact .error rfl
    · exact .ok _

theorem onlyRefuses_parseCriteria (text : List Char) : OnlyRefuses (parseCriteria m method text) := by
  unfold parseCriteria
  dsimp only
  split
  · exact .error rfl
  · refine (OnlyRefuses.mapM (onlyRefuses_parseCriterion m method _) _).bind ?_
    intro criteria
    exact .ok _

theorem onlyRefuses_parseOrder (text : List Char) : OnlyRefuses (parseOrder m method text) := by
  unfold parseOrder
  split
  · exact .error rfl
  · refine OnlyRefuses.mapM ?_ _
    intro piece
    unfold parseKey
    split
    · exact .ok _
    · exact .error rfl

theorem onlyRefuses_readCriteria (hasOrder : Bool) (text : Option (List Char)) :
    OnlyRefuses (readCriteria m method hasOrder text) := by
  unfold readCriteria
  split
  · exact .ok _
  · split
    · exact .ok _
    · exact .error rfl
  · exact onlyRefuses_parseCriteria m method _

theorem onlyRefuses_readOrder (text : Option (List Char)) : OnlyRefuses (readOrder m method text) := by
  unfold readOrder
  split
  · exact .ok _
  · exact onlyRefuses_parseOrder m method _

/-- **A name that is not parsed is refused.** -/
theorem onlyRefuses_parse : OnlyRefuses (parse m method) := by
  rw [parse_eq]
  split
  · exact .error rfl
  · next action text _ =>
    have hsubject : OnlyRefuses ((parseSubject (clauses text).1).mapError
        (QueryError.invalidMethodName method)) := by
      cases parseSubject (clauses text).1 with
      | error fault => exact .error rfl
      | ok subject => exact .ok subject
    refine hsubject.bind ?_
    intro subject
    refine (onlyRefuses_readCriteria m method _ _).bind ?_
    intro criteria
    refine (onlyRefuses_readOrder m method _).bind ?_
    intro order
    exact .ok _

end Method

namespace Capability

variable (m : EntityMetadata)

theorem onlyRefuses_checkLimit (operation : Operation) : OnlyRefuses (checkLimit operation) := by
  unfold checkLimit
  split
  · exact .error rfl
  · exact .ok _

theorem onlyRefuses_checkCriterion (criterion : Criterion) : OnlyRefuses (checkCriterion m criterion) := by
  unfold checkCriterion
  dsimp only
  split
  · exact .error rfl
  · split
    · exact .ok _
    · split
      · exact .error rfl
      · split
        · exact .error rfl
        · exact .ok _

theorem onlyRefuses_resolveKey (key : SortKey) : OnlyRefuses (resolveKey m key) := by
  unfold resolveKey
  split
  · exact .error rfl
  · have hresolve : OnlyRefuses (m.resolve key.property) := by
      unfold EntityMetadata.resolve
      split
      · exact .ok _
      · exact .error rfl
    refine hresolve.bind ?_
    intro property
    split
    · exact .error rfl
    · split
      · exact .error rfl
      · exact .ok _

theorem onlyRefuses_resolveSort (sort : Sorting) : OnlyRefuses (resolveSort m sort) := by
  unfold resolveSort
  split
  · exact .ok _
  · exact (onlyRefuses_resolveKey m _).map _
  · exact .error rfl

theorem onlyRefuses_validate (operation : Operation) (sort : Sorting) :
    OnlyRefuses (validate m operation sort) := by
  refine (onlyRefuses_checkLimit operation).bind ?_
  intro _
  refine (OnlyRefuses.forM (onlyRefuses_checkCriterion m) operation.criteria).bind ?_
  intro _
  exact onlyRefuses_resolveSort m sort

end Capability

namespace Query

variable (m : EntityMetadata)

theorem onlyRefuses_bind (criteria : List Criterion) (arguments : List Json) :
    OnlyRefuses (bind m criteria arguments) := by
  induction criteria generalizing arguments with
  | nil => exact .ok _
  | cons criterion rest ih =>
    have hcriterion : OnlyRefuses
        (bindCriterion m criterion (arguments.take criterion.operator.arity)) := by
      unfold bindCriterion
      dsimp only
      split
      · exact .error rfl
      · exact .ok _
    refine hcriterion.bind ?_
    intro predicate
    refine (ih _).bind ?_
    intro predicates
    exact .ok _

theorem onlyRefuses_assemble (operation : Operation) (arguments : List Json) (order : Option OrderKey)
    (page : PageState) : OnlyRefuses (assemble m operation arguments order page) := by
  unfold assemble
  split
  · exact .error rfl
  · refine (onlyRefuses_bind m _ _).bind ?_
    intro predicates
    exact .ok _

end Query

namespace Engine

/-- **A call that is not planned is refused.** -/
theorem onlyRefuses_plan {σ : Type} (e : Engine σ) (operation : Operation) (call : Call) :
    OnlyRefuses (e.plan operation call) := by
  refine (Capability.onlyRefuses_validate e.metadata operation _).bind ?_
  intro order
  exact Query.onlyRefuses_assemble e.metadata operation call.arguments order _

end Engine

namespace Partition

variable (m : EntityMetadata)

theorem onlyRefuses_require (tree : PredicateTree) : OnlyRefuses (require m tree) := by
  unfold require
  split
  · exact .ok _
  · split
    · exact .ok _
    · exact .error rfl

theorem onlyRefuses_ofDocument (document : Document) : OnlyRefuses (ofDocument m document) := by
  unfold ofDocument
  split
  · exact .ok _
  · dsimp only
    split
    · exact .ok _
    · exact .error rfl

/-- The document does not say to which partition it belongs, although the collection is
partitioned. -/
def Unplaced (document : Document) : Prop := ofDocument m document = .error (required m)

/-- A document belongs to some partition, or does not say to which. -/
theorem ofDocument_eq_ok_or_unplaced (document : Document) :
    (∃ partition, ofDocument m document = .ok partition) ∨ Unplaced m document := by
  unfold Unplaced ofDocument
  split
  · exact .inl ⟨_, rfl⟩
  · dsimp only
    split
    · exact .inl ⟨_, rfl⟩
    · exact .inr rfl

end Partition

/-- A document without a usable identifier is not refused: that is found by looking at the document. -/
theorem Document.isValidation_of_id {m : EntityMetadata} {document : Document} {error : QueryError}
    (h : Document.id m document = .error error) : error.isValidation = false := by
  unfold Document.id at h
  split at h
  · cases h
    rfl
  · split at h
    · cases h
    · cases h
      rfl

end DerivedQuery
