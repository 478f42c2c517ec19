import Mathlib.Algebra.Order.BigOperators.Group.List
import Mathlib.Algebra.Order.Ring.Nat
import Mathlib.Data.String.Basic
import DerivedQuery.Text.Split

/-!
# Splitting undoes joining

`Text.split` cuts as the library does (`Text.split_eq_splitOn`), so the pieces with the mark between them
are the text again, and pieces without the mark are what their joined text is cut into. The segments of a
dotted path are the names that it was made of if no name has a dot in it (`Text.segments_intercalate`);
every dot inside a name makes one segment more (`Text.length_segments_intercalate`).
-/

namespace DerivedQuery.Text

theorem split_eq_splitOn (mark : Char) (text : List Char) : split mark text = text.splitOn mark := by
  induction text with
  | nil => rfl
  | cons c rest ih =>
    rw [split, ih, List.splitOn_cons_eq_if_modifyHead]
    obtain ⟨piece, pieces, hsplit⟩ := List.exists_cons_of_ne_nil (List.splitOn_ne_nil mark rest)
    by_cases hc : c = mark <;> simp [hsplit, hc]

theorem split_ne_nil (mark : Char) (text : List Char) : split mark text ≠ [] := by
  rw [split_eq_splitOn]
  exact List.splitOn_ne_nil mark text

/-- The pieces of a text with the mark between them are the text. -/
theorem intercalate_split (mark : Char) (text : List Char) :
    [mark].intercalate (split mark text) = text := by
  rw [split_eq_splitOn, List.intercalate_splitOn]

theorem split_injective (mark : Char) : Function.Injective (split mark) := by
  intro text other h
  rw [← intercalate_split mark text, h, intercalate_split]

/-! ## Numbers of pieces -/

/-- Each mark ends a piece, and one piece is left. -/
theorem length_split (mark : Char) (text : List Char) :
    (split mark text).length = text.count mark + 1 := by
  induction text with
  | nil => rfl
  | cons c rest ih =>
    obtain ⟨piece, pieces, hsplit⟩ := List.exists_cons_of_ne_nil (split_ne_nil mark rest)
    rw [hsplit] at ih
    by_cases hc : c = mark
    · simp [split, hsplit, hc] at ih ⊢
      omega
    · simpa [split, hsplit, hc] using ih

/-- A joined text has one mark between two pieces, beside those in the pieces. -/
theorem count_intercalate (mark : Char) {pieces : List (List Char)} (hne : pieces ≠ []) :
    ([mark].intercalate pieces).count mark + 1
      = pieces.length + (pieces.map (List.count mark)).sum := by
  induction pieces with
  | nil => exact absurd rfl hne
  | cons piece rest ih =>
    cases rest with
    | nil => simp [Nat.add_comm]
    | cons next rest =>
      have hrest := ih (List.cons_ne_nil next rest)
      rw [List.intercalate_cons_cons]
      simp only [List.count_append, List.count_singleton_self, List.map_cons, List.sum_cons,
        List.length_cons] at hrest ⊢
      omega

/-! ## Dotted paths -/

variable {names : List String}

theorem toList_intercalate_dot (names : List String) :
    (".".intercalate names).toList = ['.'].intercalate (names.map String.toList) :=
  String.toList_intercalate

/-- Names without dots are the segments of their path. -/
theorem segments_intercalate (hne : names ≠ []) (h : ∀ name ∈ names, '.' ∉ name.toList) :
    segments (".".intercalate names) = names := by
  have hpieces : ∀ piece ∈ names.map String.toList, '.' ∉ piece := by
    intro piece hmem
    obtain ⟨name, hname, rfl⟩ := List.mem_map.mp hmem
    exact h name hname
  rw [segments, toList_intercalate_dot, split_eq_splitOn,
    List.splitOn_intercalate '.' hpieces (by simpa using hne)]
  simp

/-- A path has a segment for each name, and one more for each dot in a name. -/
theorem length_segments_intercalate (hne : names ≠ []) :
    (segments (".".intercalate names)).length
      = names.length + (names.map (·.toList.count '.')).sum := by
  have hpieces : names.map String.toList ≠ [] := by simpa using hne
  have hcount := count_intercalate '.' hpieces
  rw [segments, List.length_map, length_split, toList_intercalate_dot, hcount, List.length_map,
    List.map_map]
  rfl

/-- A name with a dot in it has more segments than names. -/
theorem lt_length_segments_intercalate {name : String} (hmem : name ∈ names)
    (hdot : '.' ∈ name.toList) : names.length < (segments (".".intercalate names)).length := by
  have hcount : 0 < name.toList.count '.' := List.count_pos_iff.mpr hdot
  have hsum : name.toList.count '.' ≤ (names.map (·.toList.count '.')).sum :=
    List.le_sum_of_mem (List.mem_map_of_mem hmem)
  rw [length_segments_intercalate (List.ne_nil_of_mem hmem)]
  omega

end DerivedQuery.Text
