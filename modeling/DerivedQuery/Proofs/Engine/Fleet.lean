import Mathlib.Algebra.BigOperators.Fin
import DerivedQuery.Proofs.Engine.Account
import DerivedQuery.Proofs.Engine.Names

/-!
# Engines that share their counters

Several engines may count into the same counters, each with its own entity, configuration and store and
with its own names (`Fleet`). They answer requests and step walks in any order (`Fleet.run`). The state of
all stores is one, so stores may be shared, or be parts of it that do not know of each other.

Whatever the stores answer, the counters are totals of the exchanges of all engines, and of the names
that they remember (`Fleet.counters_account`). One act keeps the account, whichever engine does it
(`Fleet.Accounted.step`), and so does a run.
-/

namespace DerivedQuery

/-- The state in which engines work that share their stores, counters and journal. -/
structure Fleet (ι σ : Type) where
  store : σ
  metrics : Metrics := {}
  /-- The method names that each engine has parsed. -/
  prepared : ι → List (String × Operation) := fun _ => []
  journal : List LogEntry := []
  drawn : Nat := 0

namespace Fleet

variable {ι σ : Type}

/-- What one of the engines does: it answers a request, or it steps a walk. -/
inductive Act (ι : Type) where
  | serve (engine : ι) (request : Request)
  | next (engine : ι) (pages : Pages)

/-- The session in which one of the engines works. -/
def session (fleet : Fleet ι σ) (i : ι) : Session σ where
  store := fleet.store
  metrics := fleet.metrics
  prepared := fleet.prepared i
  journal := fleet.journal
  drawn := fleet.drawn

/-- The engines with their exchanges kept, all in one list. -/
def witnessed (engines : ι → Engine σ) (i : ι) : Engine (σ × List Exchange) := (engines i).witnessed

/-- The name that an act makes an engine look up. -/
def Act.method? (engines : ι → Engine σ) [DecidableEq ι] (i : ι) : Act ι → Option String
  | serve engine request => if engine = i then request.method? (engines i) else none
  | next .. => none

variable [DecidableEq ι]

/-- Behind a session of one of the engines. -/
def behind (fleet : Fleet ι σ) (i : ι) (later : Session σ) : Fleet ι σ where
  store := later.store
  metrics := later.metrics
  prepared := Function.update fleet.prepared i later.prepared
  journal := later.journal
  drawn := later.drawn

/-- Behind one act. -/
def step (engines : ι → Engine σ) (fleet : Fleet ι σ) : Act ι → Fleet ι σ
  | .serve i request => fleet.behind i (((engines i).serve request).runOn (fleet.session i)).2
  | .next i pages => fleet.behind i ((pages.next (engines i).store).run (fleet.session i)).2

/-- Behind a run. -/
def run (engines : ι → Engine σ) (fleet : Fleet ι σ) (acts : List (Act ι)) : Fleet ι σ :=
  acts.foldl (step engines) fleet

variable (engines : ι → Engine σ) (fleet : Fleet ι σ)

@[simp]
theorem prepared_behind_self (i : ι) (later : Session σ) :
    (fleet.behind i later).prepared i = later.prepared := by
  simp [behind]

theorem prepared_behind_of_ne {i j : ι} (h : j ≠ i) (later : Session σ) :
    (fleet.behind i later).prepared j = fleet.prepared j := by
  simp [behind, h]

theorem run_append (acts : List (Act ι)) (act : Act ι) :
    run engines fleet (acts ++ [act]) = (run engines fleet acts).step engines act := by
  rw [run, run, List.foldl_append]
  rfl

/-! ## The account -/

variable (engines : ι → Engine σ) (fleet : Fleet ι (σ × List Exchange))

/-- An act is work of one engine, and that is accounted. -/
theorem accounted_act (act : Act ι) :
    ∃ i later, fleet.step (witnessed engines) act = fleet.behind i later ∧
      (fleet.session i).Accounted later := by
  cases act with
  | serve i request => exact ⟨i, _, rfl, (engines i).accounted_serve (fleet.session i) request⟩
  | next i pages => exact ⟨i, _, rfl, (engines i).accounted_next (fleet.session i) pages⟩

/-- The counters are totals of all exchanges, and of the names of all engines. -/
structure Accounted [Fintype ι] : Prop where
  counts : ({} : Metrics).Counts fleet.metrics fleet.store.2
  parsed : fleet.metrics.queriesParsed = ∑ i, (fleet.prepared i).length

namespace Accounted

variable {fleet} [Fintype ι]

omit [DecidableEq ι] in
theorem new (store : σ) : ({ store := (store, []) } : Fleet ι (σ × List Exchange)).Accounted where
  counts := .nil rfl rfl rfl rfl
  parsed := by simp

theorem behind (h : fleet.Accounted) {i : ι} {later : Session (σ × List Exchange)}
    (hlater : (fleet.session i).Accounted later) : (fleet.behind i later).Accounted where
  counts := by
    obtain ⟨exchanges, htrace, hcounts⟩ := hlater.exchanges
    rw [Fleet.behind, htrace]
    exact h.counts.append hcounts
  parsed := by
    obtain ⟨names, hprepared, hparsed⟩ := hlater.names
    have hothers : ∀ j ∈ Finset.univ.erase i,
        ((fleet.behind i later).prepared j).length = (fleet.prepared j).length := by
      intro j hj
      rw [fleet.prepared_behind_of_ne (Finset.ne_of_mem_erase hj)]
    have htotal : (fleet.session i).metrics.queriesParsed
        = (fleet.prepared i).length + ∑ j ∈ Finset.univ.erase i, (fleet.prepared j).length :=
      h.parsed.trans (Finset.add_sum_erase _ _ (Finset.mem_univ i)).symm
    have hown : later.prepared.length = names.length + (fleet.prepared i).length := by
      rw [hprepared, List.length_append]
      rfl
    calc later.metrics.queriesParsed
      _ = later.prepared.length + ∑ j ∈ Finset.univ.erase i, (fleet.prepared j).length := by
        rw [hparsed, htotal, hown]
        omega
      _ = ∑ j, ((fleet.behind i later).prepared j).length := by
        rw [← Finset.add_sum_erase _ _ (Finset.mem_univ i), Finset.sum_congr rfl hothers,
          prepared_behind_self]

/-- **An act keeps the account.** -/
theorem step (h : fleet.Accounted) (act : Act ι) :
    (fleet.step (witnessed engines) act).Accounted := by
  obtain ⟨i, later, hstep, hlater⟩ := fleet.accounted_act engines act
  rw [hstep]
  exact h.behind hlater

end Accounted

/-- No counter decreases on a run. -/
theorem grows_run (acts : List (Act ι)) :
    fleet.metrics.Grows (run (witnessed engines) fleet acts).metrics := by
  induction acts generalizing fleet with
  | nil => exact .refl
  | cons act acts ih =>
    obtain ⟨i, later, hstep, hlater⟩ := fleet.accounted_act engines act
    rw [run, List.foldl_cons, hstep]
    exact hlater.grows.trans (ih (fleet.behind i later))

/-! ## The names -/

section Names

variable {engines : ι → Engine σ} {fleet : Fleet ι σ} {i : ι} {asked : List String}

/-- What an engine remembers behind an act: nothing new, unless it was asked for a name. -/
theorem remembers_step (h : (engines i).Remembers asked (fleet.prepared i)) (act : Act ι) :
    (engines i).Remembers (asked ++ (act.method? engines i).toList)
      ((fleet.step engines act).prepared i) := by
  cases act with
  | next j pages =>
    have hkept : (fleet.step engines (.next j pages)).prepared i = fleet.prepared i := by
      by_cases hij : i = j
      · subst hij
        rw [step, prepared_behind_self]
        exact Pages.prepared_next _ pages (fleet.session i)
      · rw [step, fleet.prepared_behind_of_ne hij]
    rw [hkept, Act.method?, Option.toList_none, List.append_nil]
    exact h
  | serve j request =>
    by_cases hij : j = i
    · subst hij
      rw [step, prepared_behind_self, (engines j).prepared_serve, Act.method?, if_pos rfl]
      cases request.method? (engines j) with
      | none =>
        rw [Option.toList_none, List.append_nil]
        exact h
      | some method => exact h.step method
    · rw [step, fleet.prepared_behind_of_ne (Ne.symm hij), Act.method?, if_neg hij,
        Option.toList_none, List.append_nil]
      exact h

/-- **Behind any run an engine remembers just the names that it was asked for and that can be parsed,
each for what it is parsed to.** -/
theorem remembers_run (hnew : fleet.prepared i = []) (acts : List (Act ι)) :
    (engines i).Remembers (acts.filterMap (Act.method? engines i))
      ((run engines fleet acts).prepared i) := by
  induction acts using List.reverseRecOn with
  | nil =>
    rw [run, List.foldl_nil, hnew]
    exact .nil
  | append_singleton acts act ih =>
    have hlast : [act].filterMap (Act.method? engines i) = (act.method? engines i).toList := by
      cases hname : act.method? engines i with
      | none => simp [hname]
      | some method => simp [hname]
    rw [run_append, List.filterMap_append, hlast]
    exact remembers_step ih act

end Names

/-- Keeping exchanges does not change what name an act looks up. -/
theorem Act.method?_witnessed (engines : ι → Engine σ) (i : ι) (act : Act ι) :
    act.method? (witnessed engines) i = act.method? engines i := by
  cases act with
  | next => rfl
  | serve j request =>
    rw [method?, method?]
    cases request <;> rfl

/-- What is accounted behind a run, and what each engine remembers. -/
theorem accounted_run [Fintype ι] (engines : ι → Engine σ) (store : σ) (acts : List (Act ι)) :
    let fleet := run (witnessed engines) { store := (store, []) } acts
    fleet.Accounted ∧
      ∀ i, (engines i).Remembers (acts.filterMap (Act.method? engines i)) (fleet.prepared i) := by
  constructor
  · induction acts using List.reverseRecOn with
    | nil => exact .new store
    | append_singleton acts act ih =>
      rw [run_append]
      exact ih.step engines act
  · intro i
    have hnew : ({ store := (store, []) } : Fleet ι (σ × List Exchange)).prepared i = [] := rfl
    obtain ⟨hnodup, hmem⟩ : (witnessed engines i).Remembers _ _ := remembers_run hnew acts
    rw [funext (Act.method?_witnessed engines i)] at hmem
    exact ⟨hnodup, hmem⟩

/-- **Whatever the stores answer, the counters of engines that share them are totals.** They begin with
no counts and no names. Behind any run of requests and steps of walks the pages, documents, removals and
failures that have been counted are those of all exchanges, and the names are those that each engine was
asked for and could parse. No counter has decreased on the way. -/
theorem counters_account [Fintype ι] (engines : ι → Engine σ) (store : σ) (acts : List (Act ι)) :
    let fleet := run (witnessed engines) { store := (store, []) } acts
    fleet.metrics.pagesFetched = (fleet.store.2.filterMap Exchange.batch?).length ∧
    fleet.metrics.documentsReturned
      = ((fleet.store.2.filterMap Exchange.batch?).map (·.documents.length)).sum ∧
    fleet.metrics.documentsDeleted = fleet.store.2.countP Exchange.removes ∧
    fleet.metrics.storeErrors = (fleet.store.2.filterMap Exchange.fault?).length ∧
    fleet.metrics.queriesParsed = ∑ i, (fleet.prepared i).length ∧
    (∀ i, (engines i).Remembers (acts.filterMap (Act.method? engines i)) (fleet.prepared i)) ∧
    ∀ earlier later, acts = earlier ++ later →
      (run (witnessed engines) { store := (store, []) } earlier).metrics.Grows
        fleet.metrics := by
  intro fleet
  obtain ⟨haccounted, hremembers⟩ := accounted_run engines store acts
  refine ⟨?_, ?_, ?_, ?_, haccounted.parsed, hremembers, ?_⟩
  · exact haccounted.counts.pages.trans (Nat.zero_add _)
  · exact haccounted.counts.documents.trans (Nat.zero_add _)
  · exact haccounted.counts.removals.trans (Nat.zero_add _)
  · exact haccounted.counts.failures.trans (Nat.zero_add _)
  · rintro earlier later rfl
    have hfleet : fleet = run (witnessed engines)
        (run (witnessed engines) { store := (store, []) } earlier) later :=
      List.foldl_append
    rw [hfleet]
    exact grows_run engines _ later

end Fleet

end DerivedQuery
