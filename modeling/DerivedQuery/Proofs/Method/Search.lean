import Mathlib.Data.List.Basic
import DerivedQuery.Method.Reference

/-!
# Searches for a reference

A text is cut before each of its uppercase letters but the first character (`mem_heads_iff`). A search
looks for the text itself, and if that is not declared, it goes on at these cuts, in the objects that the
heads are the names of (`searchFrom_eq`). So a path is found by its own name or inside an object
(`finds_of_searchFrom`). What a search goes on with is always shorter, so it never goes deeper than the text
is long (`searchWithin_eq_some`).
-/

namespace DerivedQuery.Method

variable {text head rest : List Char}

/-! ## Cuts -/

theorem mem_headsFrom_iff {before : List Char} : (head, rest) ∈ headsFrom before text ↔
    ∃ front, text = front ++ rest ∧ head = before.reverse ++ front ∧ head ≠ [] ∧ rest ≠ [] ∧
      startsWord rest := by
  induction text generalizing before with
  | nil =>
    refine iff_of_false List.not_mem_nil ?_
    rintro ⟨front, htext, -, -, hrest, -⟩
    exact hrest (List.append_eq_nil_iff.mp htext.symm).2
  | cons c text ih =>
    rw [headsFrom, List.mem_append, ih]
    constructor
    · rintro (⟨front, rfl, rfl, hcut⟩ | hmem)
      · exact ⟨c :: front, rfl, by rw [List.reverse_cons, List.append_assoc]; rfl, hcut⟩
      · split at hmem
        · next hc =>
          rw [Bool.and_eq_true, Bool.not_eq_true', List.isEmpty_eq_false_iff] at hc
          cases List.mem_singleton.mp hmem
          exact ⟨[], rfl, (List.append_nil _).symm, List.reverse_ne_nil_iff.mpr hc.2,
            List.cons_ne_nil c text, hc.1⟩
        · cases hmem
    · rintro ⟨front, htext, rfl, hhead, hrest, hstarts⟩
      cases front with
      | nil =>
        rw [List.nil_append] at htext
        subst htext
        rw [List.append_nil] at hhead ⊢
        refine .inr ?_
        rw [if_pos]
        · exact List.mem_singleton_self _
        · rw [Bool.and_eq_true, Bool.not_eq_true', List.isEmpty_eq_false_iff]
          exact ⟨hstarts, List.reverse_ne_nil_iff.mp hhead⟩
      | cons d front =>
        obtain ⟨rfl, rfl⟩ := List.cons_eq_cons.mp htext
        refine .inl ⟨front, rfl, ?_, hhead, hrest, hstarts⟩
        rw [List.reverse_cons, List.append_assoc]
        rfl

/-- A text is cut before each uppercase letter but its first character. -/
theorem mem_heads_iff : (head, rest) ∈ heads text ↔
    text = head ++ rest ∧ head ≠ [] ∧ rest ≠ [] ∧ startsWord rest := by
  rw [heads, mem_headsFrom_iff]
  simp only [List.reverse_nil, List.nil_append]
  constructor
  · rintro ⟨front, htext, rfl, hcut⟩
    exact ⟨htext, hcut⟩
  · rintro ⟨htext, hcut⟩
    exact ⟨head, htext, rfl, hcut⟩

/-! ## Steps -/

/-- Goes on with a search at a cut: if the head is the name of an object, the rest is looked for in it. -/
def searchBehind (table : PropertyTable) (parent : Option String) (cut : List Char × List Char) :
    Option PropertyPath :=
  let name := below parent (Text.decapitalize cut.1)
  if (table.resolve? name).any (·.type.isObject) then searchFrom table (some name) cut.2 else none

/-- The text is a name itself, or the search goes on at one of its cuts. -/
theorem searchFrom_eq (table : PropertyTable) (parent : Option String) (text : List Char) :
    searchFrom table parent text = (table.resolve? (below parent (Text.decapitalize text))).or
      ((heads text).findSome? (searchBehind table parent)) := by
  rw [searchFrom]
  cases table.resolve? (below parent (Text.decapitalize text)) with
  | some path => rfl
  | none =>
    rw [Option.none_or, List.findSome?_subtype (g := searchBehind table parent), List.unattach_attach]
    exact fun _ _ => rfl

/-- How a search comes to a path: the text is its name, or a head of the text is the name of an object and
the search for the rest comes to it there. -/
inductive Finds (table : PropertyTable) (path : PropertyPath) : Option String → List Char → Prop where
  | name {parent : Option String} {text : List Char}
      (h : table.resolve? (below parent (Text.decapitalize text)) = some path) : Finds table path parent text
  | inside {parent : Option String} {text head rest : List Char} {object : PropertyPath}
      (hcut : (head, rest) ∈ heads text)
      (hobject : table.resolve? (below parent (Text.decapitalize head)) = some object)
      (h : Finds table path (some (below parent (Text.decapitalize head))) rest) :
      Finds table path parent text

theorem finds_of_searchFrom {table : PropertyTable} {parent : Option String} {path : PropertyPath}
    (h : searchFrom table parent text = some path) : Finds table path parent text := by
  -- The induction is on the length, since a search goes on with what a cut leaves of the text.
  induction hlength : text.length using Nat.strongRecOn generalizing parent text with
  | _ length ih =>
    subst hlength
    rw [searchFrom_eq] at h
    rcases Option.or_eq_some_iff.mp h with hname | ⟨-, h⟩
    · exact .name hname
    · obtain ⟨⟨head, rest⟩, hcut, hbehind⟩ := List.exists_of_findSome?_eq_some h
      rw [searchBehind] at hbehind
      dsimp only at hbehind
      split at hbehind
      · next hany =>
        obtain ⟨object, hobject, -⟩ := (Option.any_eq_true _ _).mp hany
        exact .inside hcut hobject (ih rest.length (length_lt_of_mem_heads hcut) hbehind rfl)
      · cases hbehind

/-! ## Depth -/

/-- A search that gives up where it would go deeper than `depth` objects. -/
def searchWithin (table : PropertyTable) : Nat → Option String → List Char → Option (Option PropertyPath)
  | 0, _, _ => none
  | depth + 1, parent, text =>
    match table.resolve? (below parent (Text.decapitalize text)) with
    | some path => some (some path)
    | none =>
      (heads text).findSomeM? fun cut =>
        let name := below parent (Text.decapitalize cut.1)
        if (table.resolve? name).any (·.type.isObject) then searchWithin table depth (some name) cut.2
        else some none

theorem findSomeM?_eq_some {α β : Type} {f : α → Option (Option β)} {g : α → Option β} {list : List α}
    (h : ∀ a ∈ list, f a = some (g a)) : list.findSomeM? f = some (list.findSome? g) := by
  induction list with
  | nil => rfl
  | cons a rest ih =>
    obtain ⟨hfirst, hrest⟩ := List.forall_mem_cons.mp h
    rw [List.findSomeM?_cons, hfirst, List.findSome?_cons]
    cases g a with
    | some b => rfl
    | none => exact ih hrest

/-- **A search ends**, and goes no deeper than the text is long. -/
theorem searchWithin_eq_some {depth : Nat} (table : PropertyTable) (parent : Option String)
    (h : text.length < depth) :
    searchWithin table depth parent text = some (searchFrom table parent text) := by
  induction depth generalizing parent text with
  | zero => cases h
  | succ depth ih =>
    rw [searchWithin, searchFrom_eq]
    cases table.resolve? (below parent (Text.decapitalize text)) with
    | some path => rfl
    | none =>
      rw [Option.none_or]
      refine findSomeM?_eq_some fun cut hcut => ?_
      rw [searchBehind]
      dsimp only
      split
      · exact ih _ (Nat.lt_of_lt_of_le (length_lt_of_mem_heads hcut) (Nat.le_of_lt_succ h))
      · rfl

end DerivedQuery.Method
