import Mathlib.Data.List.Basic
import DerivedQuery.Method.Words
import DerivedQuery.Proofs.Failure

/-!
# What the cuts in a name leave

Every function that cuts a name gives back the whole name: what it gives is, put together again with the
word or the ending at which it cut, the text that it was given. For the functions that look for one word
that is one equation each (`splitFirst?_eq_some`, `splitLast?_eq_some`, `eq_append_of_dropEnding`). A text
that is cut at every word of a list is what `Cuts` says, by recursion on the pieces (`cuts_cut`).
-/

namespace DerivedQuery.Method

variable {ω : Type} {word text before rest : List Char}

/-! ## One word -/

@[simp]
theorem startsWord_cons (c : Char) (text : List Char) :
    startsWord (c :: text) = Text.isUppercase c := rfl

theorem startsWord_append (h : startsWord text) (hrest : startsWord rest) :
    startsWord (text ++ rest) := by
  cases text with
  | nil => exact hrest
  | cons c text => exact h

theorem behind?_eq_some_iff :
    behind? word text = some rest ↔ text = word ++ rest ∧ startsWord rest := by
  unfold behind?
  constructor
  · intro h
    split at h
    · next hword =>
      rw [Bool.and_eq_true, List.isPrefixOf_iff_prefix] at hword
      obtain ⟨⟨after, rfl⟩, hstarts⟩ := hword
      rw [List.drop_left] at h hstarts
      cases h
      exact ⟨rfl, hstarts⟩
    · cases h
  · rintro ⟨rfl, hstarts⟩
    rw [List.drop_left, hstarts, Bool.and_true, if_pos]
    exact List.isPrefixOf_iff_prefix.mpr (List.prefix_append word rest)

theorem splitFirst?_eq_some (h : splitFirst? word text = some (before, rest)) :
    text = before ++ word ++ rest := by
  induction text generalizing before with
  | nil => cases h
  | cons c text ih =>
    rw [splitFirst?] at h
    split at h
    · next hbehind =>
      cases h
      exact (behind?_eq_some_iff.mp hbehind).1
    · obtain ⟨⟨inner, _⟩, hinner, ⟨⟩⟩ := Option.map_eq_some_iff.mp h
      rw [ih hinner]
      rfl

theorem splitLast?_eq_some (h : splitLast? word text = some (before, rest)) :
    text = before ++ word ++ rest ∧ startsWord rest := by
  induction text generalizing before with
  | nil => cases h
  | cons c text ih =>
    rw [splitLast?] at h
    split at h
    · next hlater =>
      cases h
      obtain ⟨hsplit, hstarts⟩ := ih hlater
      rw [hsplit]
      exact ⟨rfl, hstarts⟩
    · obtain ⟨_, hbehind, ⟨⟩⟩ := Option.map_eq_some_iff.mp h
      exact behind?_eq_some_iff.mp hbehind

/-! ## Endings -/

theorem withoutEnding?_eq_some_iff {ending : List Char} :
    withoutEnding? ending text = some rest ↔ text = rest ++ ending := by
  unfold withoutEnding?
  constructor
  · intro h
    split at h
    · next hending =>
      obtain ⟨front, rfl⟩ := List.isSuffixOf_iff_suffix.mp hending
      rw [List.length_append, Nat.add_sub_cancel, List.take_left] at h
      cases h
      rfl
    · cases h
  · rintro rfl
    rw [if_pos (List.isSuffixOf_iff_suffix.mpr (List.suffix_append rest ending)),
      List.length_append, Nat.add_sub_cancel, List.take_left]

theorem dropEnding_of_not_suffix {endings : List (List Char)}
    (h : ∀ ending ∈ endings, ¬ ending <:+ text) : dropEnding endings text = (text, false) := by
  have hnone : endings.findSome? (withoutEnding? · text) = none := by
    refine List.findSome?_eq_none_iff.mpr fun ending hending => ?_
    refine Option.eq_none_iff_forall_ne_some.mpr fun front hfront => h ending hending ?_
    exact ⟨front, (withoutEnding?_eq_some_iff.mp hfront).symm⟩
  rw [dropEnding, hnone]

/-- An ending is dropped if no other one of the endings can stand there too. -/
theorem dropEnding_append {endings : List (List Char)} {ending : List Char}
    (hending : ending ∈ endings)
    (hother : ∀ other ∈ endings, other <:+ ending ∨ ending <:+ other → other = ending) :
    dropEnding endings (text ++ ending) = (text, true) := by
  have hfound : endings.findSome? (withoutEnding? · (text ++ ending)) = some text := by
    refine findSome?_eq_some_of_unique hending (withoutEnding?_eq_some_iff.mpr rfl) ?_
    intro other hmem front hfront
    have hfront := withoutEnding?_eq_some_iff.mp hfront
    obtain rfl := hother other hmem
      (List.suffix_or_suffix_of_suffix ⟨front, hfront.symm⟩ (List.suffix_append text ending))
    exact (List.append_cancel_right hfront).symm
  rw [dropEnding, hfound]

/-- Without its ending a text is what stands before one of the endings, or all of it. -/
theorem eq_append_of_dropEnding {endings : List (List Char)} (hendings : [] ∉ endings)
    (text : List Char) :
    ∃ ending, text = (dropEnding endings text).1 ++ ending ∧ (ending = [] ∨ ending ∈ endings) ∧
      ((dropEnding endings text).2 = true ↔ ending ≠ []) := by
  unfold dropEnding
  cases hfound : endings.findSome? (withoutEnding? · text) with
  | none =>
    exact ⟨[], (List.append_nil text).symm, .inl rfl,
      iff_of_false Bool.false_ne_true (not_not_intro rfl)⟩
  | some rest =>
    obtain ⟨ending, hending, hrest⟩ := List.exists_of_findSome?_eq_some hfound
    exact ⟨ending, withoutEnding?_eq_some_iff.mp hrest, .inr hending,
      iff_of_true rfl fun hnil => hendings (hnil ▸ hending)⟩

/-! ## Words of a list -/

/-- The text is made of the pieces, each with a word of the list that has its meaning, and of what is
left at the end. -/
inductive Cuts (words : List (Word ω)) (last : List Char) :
    List (List Char × ω) → List Char → Prop where
  | last : Cuts words last [] last
  | piece {piece word rest : List Char} {meaning : ω} {pieces : List (List Char × ω)}
      (hword : (word, meaning) ∈ words) (h : Cuts words last pieces rest) :
      Cuts words last ((piece, meaning) :: pieces) (piece ++ word ++ rest)

theorem wordAt?_eq_some {words : List (Word ω)} {meaning : ω} {length : Nat}
    (h : wordAt? words text = some (meaning, length)) :
    ∃ word rest, (word, meaning) ∈ words ∧ word.length = length ∧ text = word ++ rest ∧
      startsWord rest := by
  obtain ⟨⟨word, _⟩, hword, hmap⟩ := List.exists_of_findSome?_eq_some h
  obtain ⟨rest, hbehind, ⟨⟩⟩ := Option.map_eq_some_iff.mp hmap
  obtain ⟨htext, hstarts⟩ := behind?_eq_some_iff.mp hbehind
  exact ⟨word, rest, hword, rfl, htext, hstarts⟩

/-- A step over a word ends the piece before it. -/
theorem cutFrom_word {words : List (Word ω)} {meaning : ω} {piece : List Char}
    (hpiece : piece ≠ []) (hword : word ≠ [])
    (h : wordAt? words (word ++ rest) = some (meaning, word.length)) :
    cutFrom words piece (word ++ rest)
      = ((piece.reverse, meaning) :: (cutFrom words [] rest).1, (cutFrom words [] rest).2) := by
  obtain ⟨c, tail, rfl⟩ := List.exists_cons_of_ne_nil hword
  have hsome : piece.isEmpty = false := List.isEmpty_eq_false_iff.mpr hpiece
  rw [List.cons_append] at h ⊢
  rw [cutFrom, hsome, if_neg Bool.false_ne_true, h]
  dsimp only
  rw [List.length_cons, Nat.add_sub_cancel, List.drop_left]

/-- A step over any other character puts it into the piece. -/
theorem cutFrom_char {words : List (Word ω)} {c : Char} {piece : List Char}
    (h : piece = [] ∨ wordAt? words (c :: text) = none) :
    cutFrom words piece (c :: text) = cutFrom words (c :: piece) text := by
  rw [cutFrom]
  rcases h with rfl | h
  · rfl
  · rw [h, ite_self]

/-- **What a text is cut to makes up the text.** -/
theorem cuts_cutFrom {words : List (Word ω)} (hwords : ∀ word ∈ words, word.1 ≠ [])
    (piece text : List Char) :
    Cuts words (cutFrom words piece text).2 (cutFrom words piece text).1 (piece.reverse ++ text) := by
  -- The induction is on the length, since a cut goes on behind a whole word.
  induction hlength : text.length using Nat.strongRecOn generalizing piece text with
  | _ length ih =>
    subst hlength
    cases text with
    | nil =>
      rw [cutFrom, List.append_nil]
      exact .last
    | cons c text =>
      by_cases hskip : piece = [] ∨ wordAt? words (c :: text) = none
      · rw [cutFrom_char hskip, List.append_cons, ← List.reverse_cons]
        exact ih text.length (Nat.lt_succ_self _) (c :: piece) text rfl
      · obtain ⟨hpiece, hsome⟩ := not_or.mp hskip
        obtain ⟨⟨meaning, length⟩, hword⟩ := Option.ne_none_iff_exists'.mp hsome
        obtain ⟨word, rest, hmem, rfl, htext, -⟩ := wordAt?_eq_some hword
        have hpos : 0 < word.length := List.length_pos_iff.mpr (hwords _ hmem)
        rw [htext] at hword ⊢
        have hshorter : rest.length < (c :: text).length := by
          rw [htext, List.length_append]
          omega
        rw [cutFrom_word hpiece (hwords _ hmem) hword, ← List.append_assoc]
        exact .piece hmem (ih rest.length hshorter [] rest rfl)

theorem cuts_cut {words : List (Word ω)} (hwords : ∀ word ∈ words, word.1 ≠ [])
    (text : List Char) : Cuts words (cut words text).2 (cut words text).1 text :=
  cuts_cutFrom hwords [] text

end DerivedQuery.Method
