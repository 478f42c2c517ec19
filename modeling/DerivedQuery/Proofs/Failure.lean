import Mathlib.Data.List.Forall2

/-!
# Computations that may fail

How `Except` goes on: with the value of a step, or not at all. Every planning step of an engine is such
a computation. What gives nothing instead of failing is an `Option`.
-/

namespace DerivedQuery

variable {ε α β : Type}

@[simp]
theorem ok_bind (a : α) (next : α → Except ε β) : (Except.ok a >>= next) = next a := rfl

@[simp]
theorem error_bind (error : ε) (next : α → Except ε β) :
    ((Except.error error : Except ε α) >>= next) = .error error := rfl

/-- Two steps succeed if the first one does and the second one does with its value. -/
theorem bind_eq_ok_iff {step : Except ε α} {next : α → Except ε β} {b : β} :
    (step >>= next) = .ok b ↔ ∃ a, step = .ok a ∧ next a = .ok b := by
  cases step with
  | error error => simp
  | ok a => simp

/-- A step succeeds whatever its errors are turned into. -/
@[simp]
theorem mapError_eq_ok_iff {ε' : Type} {f : ε → ε'} {step : Except ε α} {a : α} :
    step.mapError f = .ok a ↔ step = .ok a := by
  cases step with
  | error error => exact ⟨nofun, nofun⟩
  | ok b =>
    change Except.ok b = Except.ok a ↔ _
    simp only [Except.ok.injEq]

/-- A guarded step succeeds if the guard does not stop it. -/
theorem ite_error_eq_ok_iff {p : Prop} [Decidable p] {error : ε} {step : Except ε α} {a : α} :
    (if p then Except.error error else step) = .ok a ↔ ¬p ∧ step = .ok a := by
  by_cases h : p <;> simp [h]

/-- A step that never fails maps to the list itself. -/
theorem mapM_ok (list : List α) : list.mapM (Except.ok : α → Except ε α) = .ok list := by
  induction list with
  | nil => rfl
  | cons a rest ih => rw [List.mapM_cons, ok_bind, ih, ok_bind]; rfl

/-- A list of steps succeeds if each of them does. -/
theorem mapM_eq_ok_iff {step : α → Except ε β} {list : List α} {results : List β} :
    list.mapM step = .ok results ↔ List.Forall₂ (fun a b => step a = .ok b) list results := by
  induction list generalizing results with
  | nil =>
    rw [List.forall₂_nil_left_iff]
    exact ⟨fun h => (Except.ok.inj h).symm, fun h => h ▸ rfl⟩
  | cons a rest ih =>
    rw [List.mapM_cons, bind_eq_ok_iff, List.forall₂_cons_left_iff]
    simp only [bind_eq_ok_iff, ih]
    constructor
    · rintro ⟨b, hb, others, hothers, ⟨⟩⟩
      exact ⟨b, others, hb, hothers, rfl⟩
    · rintro ⟨b, others, hb, hothers, rfl⟩
      exact ⟨b, hb, others, hothers, rfl⟩

/-- What a list of steps gives, one of them does. -/
theorem exists_of_mem_mapM {step : α → Except ε β} {list : List α} {results : List β}
    (h : list.mapM step = .ok results) {b : β} (hb : b ∈ results) : ∃ a ∈ list, step a = .ok b := by
  rw [mapM_eq_ok_iff] at h
  induction h with
  | nil => cases hb
  | cons hfirst _ ih =>
    rcases List.mem_cons.mp hb with rfl | hrest
    · exact ⟨_, List.mem_cons_self, hfirst⟩
    · obtain ⟨a, ha, hstep⟩ := ih hrest
      exact ⟨a, List.mem_cons_of_mem _ ha, hstep⟩

/-- A list of steps that fails gives what the first step that fails gives. -/
theorem mapM_eq_ok_or_error (step : α → Except ε β) (list : List α) :
    (∃ results, list.mapM step = .ok results ∧
      List.Forall₂ (fun a b => step a = .ok b) list results) ∨
    ∃ passed a rest error, list = passed ++ a :: rest ∧ (∀ b ∈ passed, ∃ c, step b = .ok c) ∧
      step a = .error error ∧ list.mapM step = .error error := by
  induction list with
  | nil => exact .inl ⟨[], rfl, .nil⟩
  | cons a rest ih =>
    rw [List.mapM_cons]
    cases hfirst : step a with
    | error error => exact .inr ⟨[], a, rest, error, rfl, List.forall_mem_nil _, hfirst, rfl⟩
    | ok b =>
      rw [ok_bind]
      rcases ih with ⟨results, hrun, hsteps⟩ | ⟨passed, last, behind, error, rfl, hpassed, hlast, hrun⟩
      · rw [hrun]
        exact .inl ⟨b :: results, rfl, .cons hfirst hsteps⟩
      · rw [hrun]
        exact .inr ⟨a :: passed, last, behind, error, rfl,
          List.forall_mem_cons.mpr ⟨⟨b, hfirst⟩, hpassed⟩, hlast, rfl⟩

/-- What each step keeps that succeeds, a run of steps keeps. -/
theorem foldlM_keeps {step : β → α → Except ε β} {P : β → Prop}
    (hstep : ∀ b a b', P b → step b a = .ok b' → P b') {list : List α} {b b' : β} (h : P b)
    (hrun : list.foldlM step b = .ok b') : P b' := by
  induction list generalizing b with
  | nil => exact Except.ok.inj hrun ▸ h
  | cons a rest ih =>
    rw [List.foldlM_cons] at hrun
    obtain ⟨next, hnext, hrest⟩ := bind_eq_ok_iff.mp hrun
    exact ih (hstep b a next h hnext) hrest

/-- A list of checks passes if each of them does. -/
theorem forM_eq_ok_iff {check : α → Except ε Unit} {list : List α} :
    list.forM check = .ok () ↔ ∀ a ∈ list, check a = .ok () := by
  induction list with
  | nil => exact ⟨fun _ => List.forall_mem_nil _, fun _ => rfl⟩
  | cons a rest ih =>
    change (check a >>= fun _ => rest.forM check) = _ ↔ _
    rw [bind_eq_ok_iff, List.forall_mem_cons, ← ih]
    exact ⟨fun ⟨(), ha, hrest⟩ => ⟨ha, hrest⟩, fun ⟨ha, hrest⟩ => ⟨(), ha, hrest⟩⟩

/-- Checks that fail in one way only give what the first one that fails gives. -/
theorem forM_map_eq_find? {check : β → Except ε Unit} {f : α → β} {bad : α → Bool}
    {error : α → ε} {list : List α}
    (h : ∀ a ∈ list, check (f a) = if bad a then .error (error a) else .ok ()) :
    (list.map f).forM check =
      match list.find? bad with
      | none => .ok ()
      | some a => .error (error a) := by
  induction list with
  | nil => rfl
  | cons a rest ih =>
    obtain ⟨hfirst, hrest⟩ := List.forall_mem_cons.mp h
    change (check (f a) >>= fun _ => (rest.map f).forM check) = _
    rw [hfirst, List.find?_cons]
    cases bad a with
    | true => rfl
    | false => exact ih hrest

/-- The first step that gives something gives what one step gives, if no step gives anything else. -/
theorem findSome?_eq_some_of_unique {f : α → Option β} {list : List α} {a : α} {b : β}
    (ha : a ∈ list) (hb : f a = some b) (hunique : ∀ x ∈ list, ∀ y, f x = some y → y = b) :
    list.findSome? f = some b := by
  have hsome : (list.findSome? f).isSome :=
    List.findSome?_isSome_iff.mpr ⟨a, ha, Option.isSome_of_eq_some hb⟩
  obtain ⟨y, hy⟩ := Option.isSome_iff_exists.mp hsome
  obtain ⟨x, hx, hfound⟩ := List.exists_of_findSome?_eq_some hy
  rw [hy, hunique x hx y hfound]

/-- Steps that all give something give the list of it. -/
theorem map_eq_map_some_filterMap {f : α → Option β} {list : List α}
    (h : ∀ a ∈ list, ∃ b, f a = some b) : list.map f = (list.filterMap f).map some := by
  rw [List.map_filterMap_some_eq_filter_map_isSome, List.filter_eq_self.mpr]
  intro found hfound
  obtain ⟨a, ha, rfl⟩ := List.mem_map.mp hfound
  exact Option.isSome_iff_exists.mpr (h a ha)

end DerivedQuery
