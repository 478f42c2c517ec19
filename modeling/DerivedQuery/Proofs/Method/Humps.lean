import Mathlib.Data.List.SplitBy
import Mathlib.Data.List.TakeWhile
import DerivedQuery.Proofs.Failure
import DerivedQuery.Proofs.Method.Words

/-!
# Humps

The `humps` of a name are its capitalised words: it is cut in front of every uppercase letter. A word
that is found in a name starts with an uppercase letter and ends where the next one does, so its humps are
humps of the name. What a scan does is therefore seen from the humps alone: a word whose humps do not
follow each other in the name is not found in it (`splitLast?_eq_none`), an ending whose humps do not end
it is not dropped (`dropEnding_eq_self`), and the text is cut where the words were put (`cut_joined`) if
they are no humps of the pieces between them.
-/

namespace DerivedQuery.Method

variable {ω : Type} {word text rest : List Char}

/-- The capitalised words of a text. -/
def humps (text : List Char) : List (List Char) := text.splitBy fun _ c => !Text.isUppercase c

theorem humps_append (text : List Char) (h : startsWord rest) :
    humps (text ++ rest) = humps text ++ humps rest := by
  refine List.splitBy_append fun _ _ c hc => ?_
  cases rest with
  | nil => cases hc
  | cons d rest =>
    cases hc
    simpa using h

@[simp]
theorem humps_eq_nil_iff : humps text = [] ↔ text = [] := List.splitBy_eq_nil

/-- A letter and what follows it without an uppercase letter are one word. -/
theorem humps_cons {c : Char} (h : ∀ d ∈ text, Text.isUppercase d = false) :
    humps (c :: text) = [c :: text] := by
  refine List.splitBy_of_isChain (List.cons_ne_nil c text) ?_
  induction text generalizing c with
  | nil => exact List.isChain_singleton c
  | cons d text ih =>
    obtain ⟨hd, h⟩ := List.forall_mem_cons.mp h
    exact .cons_cons (by simpa using hd) (ih h)

/-- A word of a text is a word of the text behind any letter, and not the first one there. -/
theorem mem_tail_humps_cons {c : Char} {hump : List Char} (h : hump ∈ humps text)
    (hstarts : startsWord hump) : hump ∈ (humps (c :: text)).tail := by
  -- What comes before the first uppercase letter is a word of the text, but not one that starts so.
  generalize hlower : text.takeWhile (fun d => !Text.isUppercase d) = lower
  generalize hrest : text.dropWhile (fun d => !Text.isUppercase d) = rest
  have htext : text = lower ++ rest := by rw [← hlower, ← hrest, List.takeWhile_append_dropWhile]
  have hnone : ∀ d ∈ lower, Text.isUppercase d = false := by
    intro d hd
    rw [← hlower] at hd
    simpa using List.mem_takeWhile_imp hd
  have hupper : startsWord rest := by
    cases rest with
    | nil => rfl
    | cons d rest =>
      have hne : text.dropWhile (fun d => !Text.isUppercase d) ≠ [] := by
        rw [hrest]
        exact List.cons_ne_nil d rest
      have hnot := List.head_dropWhile_not (fun d => !Text.isUppercase d) hne
      simpa [hrest] using hnot
  rw [htext, ← List.cons_append, humps_append _ hupper, humps_cons hnone, List.singleton_append,
    List.tail_cons]
  rw [htext, humps_append _ hupper] at h
  rcases List.mem_append.mp h with h | h
  · cases lower with
    | nil => cases h
    | cons d lower =>
      obtain ⟨hd, hnone⟩ := List.forall_mem_cons.mp hnone
      rw [humps_cons hnone] at h
      cases List.mem_singleton.mp h
      exact absurd hstarts (Bool.eq_false_iff.mp hd)
  · exact h

/-! ## Words in a text -/

theorem humps_of_behind? (h : behind? word text = some rest) :
    humps text = humps word ++ humps rest := by
  obtain ⟨rfl, hstarts⟩ := behind?_eq_some_iff.mp h
  exact humps_append word hstarts

theorem humps_of_splitLast? {before : List Char} (hword : startsWord word)
    (h : splitLast? word text = some (before, rest)) :
    humps text = humps before ++ humps word ++ humps rest := by
  obtain ⟨rfl, hstarts⟩ := splitLast?_eq_some h
  rw [humps_append _ hstarts, humps_append _ hword]

/-- What does not have the humps of a word does not have the word. -/
theorem splitLast?_eq_none (hword : startsWord word)
    (h : ¬ humps word <:+: humps text) : splitLast? word text = none := by
  refine Option.eq_none_iff_forall_ne_some.mpr fun ⟨before, rest⟩ hsplit => h ?_
  rw [humps_of_splitLast? hword hsplit]
  exact ⟨humps before, humps rest, rfl⟩

/-- The last occurrence of a word is found if there is none behind its first letter. -/
theorem splitLast?_append {c : Char} (before : List Char) (hstarts : startsWord rest)
    (h : splitLast? (c :: word) (word ++ rest) = none) :
    splitLast? (c :: word) (before ++ (c :: word ++ rest)) = some (before, rest) := by
  induction before with
  | nil =>
    rw [List.nil_append, List.cons_append, splitLast?, h]
    dsimp only
    rw [← List.cons_append, behind?_eq_some_iff.mpr ⟨rfl, hstarts⟩, Option.map_some]
  | cons d before ih => rw [List.cons_append, splitLast?, ih]

/-! ## Endings -/

theorem dropEnding_eq_self {endings : List (List Char)}
    (h : ∀ ending ∈ endings, startsWord ending ∧ ¬ humps ending <:+ humps text) :
    dropEnding endings text = (text, false) := by
  refine dropEnding_of_not_suffix fun ending hending => ?_
  obtain ⟨hstarts, hsuffix⟩ := h ending hending
  rintro ⟨front, rfl⟩
  rw [humps_append _ hstarts] at hsuffix
  exact hsuffix (List.suffix_append _ _)

/-! ## Cuts -/

/-- Each entry is one capitalised word, and no word is in the list twice. -/
structure IsVocabulary (words : List (Word ω)) : Prop where
  starts : ∀ word ∈ words, startsWord word.1
  single : ∀ word ∈ words, humps word.1 = [word.1]
  unique : ∀ word ∈ words, ∀ other ∈ words, word.1 = other.1 → word = other

namespace IsVocabulary

variable {words : List (Word ω)}

theorem ne_nil (h : IsVocabulary words) {word : Word ω} (hword : word ∈ words) : word.1 ≠ [] := by
  intro hnil
  have hsingle := h.single word hword
  rw [hnil, humps_eq_nil_iff.mpr rfl] at hsingle
  cases hsingle

/-- A word of the list at the start of a text is its first hump. -/
theorem head?_humps (h : IsVocabulary words) {meaning : ω} {length : Nat}
    (hword : wordAt? words text = some (meaning, length)) :
    ∃ word ∈ words, (humps text).head? = some word.1 ∧ meaning = word.2 ∧ length = word.1.length := by
  obtain ⟨word, rest, hmem, rfl, rfl, hstarts⟩ := wordAt?_eq_some hword
  refine ⟨(word, meaning), hmem, ?_, rfl, rfl⟩
  rw [humps_append _ hstarts, h.single _ hmem]
  rfl

theorem wordAt?_append (h : IsVocabulary words) {word : Word ω} (hword : word ∈ words)
    (hstarts : startsWord rest) :
    wordAt? words (word.1 ++ rest) = some (word.2, word.1.length) := by
  refine findSome?_eq_some_of_unique hword ?_ ?_
  · change (behind? word.1 (word.1 ++ rest)).map _ = _
    rw [behind?_eq_some_iff.mpr ⟨rfl, hstarts⟩, Option.map_some]
  · rintro other hother _ hfound
    obtain ⟨behind, hbehind, rfl⟩ := Option.map_eq_some_iff.mp hfound
    have hhumps := humps_of_behind? hbehind
    rw [humps_append _ hstarts, h.single word hword, h.single other hother] at hhumps
    rw [h.unique word hword other hother (List.cons_eq_cons.mp hhumps).1]

end IsVocabulary

variable {words : List (Word ω)}

/-- A piece without words of the list is read to its end. Its first hump may be such a word. -/
theorem cutFrom_append (h : IsVocabulary words) (hstarts : startsWord rest) (piece skipped : List Char)
    (hfirst : piece ≠ [] → ∀ word ∈ words, (humps skipped).head? ≠ some word.1)
    (hrest : ∀ word ∈ words, word.1 ∉ (humps skipped).tail) :
    cutFrom words piece (skipped ++ rest) = cutFrom words (skipped.reverse ++ piece) rest := by
  induction skipped generalizing piece with
  | nil => rfl
  | cons c skipped ih =>
    have hchar : piece = [] ∨ wordAt? words (c :: (skipped ++ rest)) = none := by
      refine or_iff_not_imp_left.mpr fun hpiece => Option.eq_none_iff_forall_ne_some.mpr ?_
      rintro ⟨meaning, length⟩ hword
      obtain ⟨word, hmem, hhead, -, -⟩ := h.head?_humps hword
      rw [← List.cons_append, humps_append _ hstarts, List.head?_append_of_ne_nil] at hhead
      · exact hfirst hpiece word hmem hhead
      · exact humps_eq_nil_iff.not.mpr (List.cons_ne_nil c skipped)
    -- Behind the first letter every word that is left starts behind it.
    have hlater : ∀ word ∈ words, word.1 ∉ humps skipped := fun word hword hmem =>
      hrest word hword (mem_tail_humps_cons hmem (h.starts word hword))
    rw [List.cons_append, cutFrom_char hchar, ih (c :: piece), List.reverse_cons, List.append_assoc,
      List.singleton_append]
    · exact fun _ word hword hhead => hlater word hword (List.mem_of_mem_head? hhead)
    · exact fun word hword hmem => hlater word hword (List.mem_of_mem_tail hmem)

/-- A piece that is not cut: it starts with an uppercase letter, and no word of the list is one of its
later humps. -/
structure IsPiece (words : List (Word ω)) (piece : List Char) : Prop where
  ne_nil : piece ≠ []
  starts : startsWord piece
  uncut : ∀ word ∈ words, word.1 ∉ (humps piece).tail

theorem cutFrom_piece (h : IsVocabulary words) {piece : List Char} (hpiece : IsPiece words piece)
    (hstarts : startsWord rest) :
    cutFrom words [] (piece ++ rest) = cutFrom words piece.reverse rest := by
  rw [cutFrom_append h hstarts [] piece (fun hne => absurd rfl hne) hpiece.uncut, List.append_nil]

/-! ## Joined texts -/

/-- Pieces, each with a word behind it, and what comes last. -/
def joined (pieces : List (List Char × Word ω)) (last : List Char) : List Char :=
  pieces.flatMap (fun piece => piece.1 ++ piece.2.1) ++ last

theorem joined_cons (piece : List Char × Word ω) (pieces : List (List Char × Word ω))
    (last : List Char) :
    joined (piece :: pieces) last = piece.1 ++ (piece.2.1 ++ joined pieces last) := by
  rw [joined, joined, List.flatMap_cons, List.append_assoc, List.append_assoc]

variable {pieces : List (List Char × Word ω)} {last : List Char}

theorem startsWord_joined (h : IsVocabulary words)
    (hpieces : ∀ piece ∈ pieces, startsWord piece.1 ∧ piece.2 ∈ words) (hlast : startsWord last) :
    startsWord (joined pieces last) := by
  induction pieces with
  | nil => exact hlast
  | cons piece pieces ih =>
    obtain ⟨⟨hpiece, hword⟩, hpieces⟩ := List.forall_mem_cons.mp hpieces
    rw [joined_cons]
    exact startsWord_append hpiece (startsWord_append (h.starts _ hword) (ih hpieces))

theorem humps_joined (h : IsVocabulary words)
    (hpieces : ∀ piece ∈ pieces, startsWord piece.1 ∧ piece.2 ∈ words) (hlast : startsWord last) :
    humps (joined pieces last)
      = pieces.flatMap (fun piece => humps piece.1 ++ [piece.2.1]) ++ humps last := by
  induction pieces with
  | nil => rfl
  | cons piece pieces ih =>
    obtain ⟨⟨-, hword⟩, hpieces⟩ := List.forall_mem_cons.mp hpieces
    have hbehind := startsWord_joined h hpieces hlast
    rw [joined_cons, humps_append _ (startsWord_append (h.starts _ hword) hbehind),
      humps_append _ hbehind, h.single _ hword, ih hpieces, List.flatMap_cons, List.append_assoc,
      List.append_assoc]

/-- **A text is cut where words of the list were put between pieces.** -/
theorem cut_joined (h : IsVocabulary words)
    (hpieces : ∀ piece ∈ pieces, IsPiece words piece.1 ∧ piece.2 ∈ words)
    (hlast : last = [] ∨ IsPiece words last) :
    cut words (joined pieces last) = (pieces.map fun piece => (piece.1, piece.2.2), last) := by
  induction pieces with
  | nil =>
    rw [joined, List.flatMap_nil, List.nil_append, List.map_nil, cut]
    rcases hlast with rfl | hlast
    · rw [cutFrom, List.reverse_nil]
    · rw [← List.append_nil last, cutFrom_piece h hlast rfl, cutFrom, List.reverse_reverse,
        List.append_nil]
  | cons piece pieces ih =>
    obtain ⟨⟨hpiece, hword⟩, hpieces⟩ := List.forall_mem_cons.mp hpieces
    have hstarts : startsWord last := by
      rcases hlast with rfl | hlast
      · rfl
      · exact hlast.starts
    have hbehind := startsWord_joined h
      (fun piece hpiece => (hpieces piece hpiece).imp_left (·.starts)) hstarts
    have ih := ih hpieces
    rw [cut] at ih ⊢
    rw [joined_cons, cutFrom_piece h hpiece (startsWord_append (h.starts _ hword) hbehind),
      cutFrom_word (List.reverse_ne_nil_iff.mpr hpiece.ne_nil) (h.ne_nil hword)
        (h.wordAt?_append hword hbehind), ih, List.reverse_reverse, List.map_cons]

end DerivedQuery.Method
