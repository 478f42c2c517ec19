import DerivedQuery.Plan.Sql
import DerivedQuery.Proofs.Text.Split

/-!
# Names in query text

A query text holds two kinds of names: those of document fields and those of parameters. Each can be told
from what follows it, as long as that starts with a delimiter (`Sql.Delimited`). A parameter ends where no
name character follows (`IsParameter.append_inj`). The segments of a field are plain names or quoted ones,
and a quoted one ends at the first quote that is not escaped (`fieldRef_append_inj`), so no two fields
share a text, whatever characters their names have.
-/

namespace DerivedQuery

namespace Sql

/-! ## Delimiters -/

/-- A character that stands behind fields and parameters. -/
def isDelimiter (c : Char) : Bool := c == ' ' || c == ',' || c == ')'

/-- The text starts with a delimiter, if it goes on at all. -/
def Delimited (rest : List Char) : Prop := ∀ c ∈ rest.head?, isDelimiter c

/-- The text does not go on with a character of a name. -/
def EndsName (rest : List Char) : Prop := ∀ c ∈ rest.head?, isNameChar c = false

theorem isNameChar_of_isDelimiter {c : Char} (h : isDelimiter c) : isNameChar c = false := by
  simp only [isDelimiter, Bool.or_eq_true, beq_iff_eq] at h
  obtain (rfl | rfl) | rfl := h <;> rfl

theorem Delimited.endsName {rest : List Char} (h : Delimited rest) : EndsName rest :=
  fun c hc => isNameChar_of_isDelimiter (h c hc)

theorem takeWhile_name_append {name rest : List Char} (hname : ∀ c ∈ name, isNameChar c)
    (hrest : EndsName rest) : (name ++ rest).takeWhile isNameChar = name := by
  rw [List.takeWhile_append_of_pos hname]
  cases rest with
  | nil => rw [List.takeWhile_nil, List.append_nil]
  | cons c rest =>
    rw [List.takeWhile_cons, hrest c rfl]
    exact List.append_nil name

/-- A name ends where no character of a name follows. -/
theorem name_append_inj {name other rest rest' : List Char} (hname : ∀ c ∈ name, isNameChar c)
    (hother : ∀ c ∈ other, isNameChar c) (hrest : EndsName rest) (hrest' : EndsName rest')
    (h : name ++ rest = other ++ rest') : name = other ∧ rest = rest' := by
  have heq : name = other := by
    rw [← takeWhile_name_append hname hrest, h, takeWhile_name_append hother hrest']
  subst heq
  exact ⟨rfl, List.append_cancel_left h⟩

/-! ## Fields -/

/-- A quoted text ends at the first quote that is not escaped. -/
theorem escape_append_inj {text other rest rest' : List Char}
    (h : text.flatMap escapeChar ++ '"' :: rest = other.flatMap escapeChar ++ '"' :: rest') :
    text = other ∧ rest = rest' := by
  -- The first character of an escaped one tells whether it is a backslash, a quote or anything else,
  -- and an unescaped quote is none of them.
  induction text generalizing other with
  | nil =>
    cases other with
    | nil => exact ⟨rfl, List.tail_eq_of_cons_eq h⟩
    | cons d other =>
      rw [List.flatMap_nil, List.flatMap_cons, escapeChar] at h
      split at h
      · simp at h
      · next hd =>
        simp only [List.nil_append, List.cons_append, List.cons.injEq] at h
        exact absurd (Or.inr h.1.symm) hd
  | cons c text ih =>
    cases other with
    | nil =>
      rw [List.flatMap_nil, List.flatMap_cons, escapeChar] at h
      split at h
      · simp at h
      · next hc =>
        simp only [List.nil_append, List.cons_append, List.cons.injEq] at h
        exact absurd (Or.inr h.1) hc
    | cons d other =>
      rw [List.flatMap_cons, List.flatMap_cons, List.append_assoc, List.append_assoc, escapeChar,
        escapeChar] at h
      have hboth : c = d ∧ text.flatMap escapeChar ++ '"' :: rest
          = other.flatMap escapeChar ++ '"' :: rest' := by
        split at h
        · split at h
          · simpa using h
          · next hd =>
            simp only [List.cons_append, List.nil_append, List.cons.injEq] at h
            exact absurd (Or.inl h.1.symm) hd
        · next hc =>
          split at h
          · simp only [List.cons_append, List.nil_append, List.cons.injEq] at h
            exact absurd (Or.inl h.1) hc
          · simpa using h
      obtain ⟨rfl, hrest⟩ := hboth
      obtain ⟨rfl, heq⟩ := ih hrest
      exact ⟨rfl, heq⟩

theorem isNameChar_of_isIdentifier {segment : List Char} (h : isIdentifier segment) :
    ∀ c ∈ segment, isNameChar c := by
  cases segment with
  | nil => cases h
  | cons c rest =>
    rw [isIdentifier, Bool.and_eq_true, List.all_eq_true] at h
    refine List.forall_mem_cons.mpr ⟨?_, h.2⟩
    rw [isNameChar, Char.isAlphanum]
    rw [Bool.or_eq_true] at h ⊢
    exact h.1.imp_left fun halpha => Bool.or_eq_true_iff.mpr (.inl halpha)

/-- A segment can be told from what follows it if that does not go on with a name. -/
theorem segmentRef_append_inj {segment other rest rest' : List Char} (hrest : EndsName rest)
    (hrest' : EndsName rest') (h : segmentRef segment ++ rest = segmentRef other ++ rest') :
    segment = other ∧ rest = rest' := by
  unfold segmentRef at h
  split at h
  · next hsegment =>
    split at h
    · next hother =>
      exact name_append_inj (isNameChar_of_isIdentifier hsegment) (isNameChar_of_isIdentifier hother)
        hrest hrest' (List.tail_eq_of_cons_eq h)
    · simp at h
  · split at h
    · simp at h
    · simp only [List.cons_append, List.append_assoc, List.nil_append, List.cons.injEq, true_and] at h
      obtain ⟨rfl, hquote⟩ := escape_append_inj h
      exact ⟨rfl, List.tail_eq_of_cons_eq hquote⟩

/-- What follows a segment is a segment again or ends the field. -/
theorem endsName_segments {segments : List (List Char)} {rest : List Char} (hrest : Delimited rest) :
    EndsName (segments.flatMap segmentRef ++ rest) := by
  cases segments with
  | nil => exact hrest.endsName
  | cons segment segments =>
    rw [List.flatMap_cons, segmentRef]
    split
    · rintro c ⟨⟩
      rfl
    · rintro c ⟨⟩
      rfl

theorem segments_append_inj {segments others : List (List Char)} {rest rest' : List Char}
    (hrest : Delimited rest) (hrest' : Delimited rest')
    (h : segments.flatMap segmentRef ++ rest = others.flatMap segmentRef ++ rest') :
    segments = others ∧ rest = rest' := by
  -- A segment starts with a character that delimits nothing.
  have hstart : ∀ {segment} {segments : List (List Char)} {rest rest' : List Char}, Delimited rest →
      rest ≠ (segment :: segments).flatMap segmentRef ++ rest' := by
    intro segment segments rest rest' hrest heq
    rw [List.flatMap_cons, segmentRef] at heq
    split at heq
    · subst heq
      cases hrest '.' rfl
    · subst heq
      cases hrest '[' rfl
  induction segments generalizing others with
  | nil =>
    cases others with
    | nil => exact ⟨rfl, h⟩
    | cons other others => exact absurd h (hstart hrest)
  | cons segment segments ih =>
    cases others with
    | nil => exact absurd h.symm (hstart hrest')
    | cons other others =>
      rw [List.flatMap_cons, List.flatMap_cons, List.append_assoc, List.append_assoc] at h
      obtain ⟨rfl, htail⟩ := segmentRef_append_inj (endsName_segments hrest)
        (endsName_segments hrest') h
      obtain ⟨rfl, heq⟩ := ih htail
      exact ⟨rfl, heq⟩

theorem toList_fieldRef (dotted : String) :
    (fieldRef dotted).toList = 'r' :: (Text.split '.' dotted.toList).flatMap segmentRef := by
  simp [fieldRef]

/-- **A field can be told from what follows it.** -/
theorem fieldRef_append_inj {field other : String} {rest rest' : List Char} (hrest : Delimited rest)
    (hrest' : Delimited rest')
    (h : (fieldRef field).toList ++ rest = (fieldRef other).toList ++ rest') :
    field = other ∧ rest = rest' := by
  rw [toList_fieldRef, toList_fieldRef] at h
  obtain ⟨hsplit, heq⟩ := segments_append_inj hrest hrest' (List.tail_eq_of_cons_eq h)
  exact ⟨String.toList_inj.mp (Text.split_injective '.' hsplit), heq⟩

/-! ## Parameters -/

/-- The text of a parameter's name. -/
def IsParameter (text : List Char) : Prop := ∃ name, text = '@' :: name ∧ ∀ c ∈ name, isNameChar c

theorem isNameChar_of_mem_digits {n : Nat} {c : Char} (h : c ∈ Nat.toDigits 10 n) : isNameChar c := by
  have hdigit := Nat.isDigit_of_mem_toDigits (by decide) (by decide) h
  simp [isNameChar, Char.isAlphanum, hdigit]

theorem toList_parameterName (property : PropertyPath) (position : Nat) :
    (parameterName property position).toList
      = '@' :: (property.leaf.toList.filter isNameChar ++ Nat.toDigits 10 position) := by
  simp [parameterName]

theorem isParameter_parameterName (property : PropertyPath) (position : Nat) :
    IsParameter (parameterName property position).toList := by
  refine ⟨_, toList_parameterName property position, ?_⟩
  intro c hc
  obtain hleaf | hdigit := List.mem_append.mp hc
  · exact (List.mem_filter.mp hleaf).2
  · exact isNameChar_of_mem_digits hdigit

/-- A parameter can be told from what follows it. -/
theorem IsParameter.append_inj {text other rest rest' : List Char} (htext : IsParameter text)
    (hother : IsParameter other) (hrest : Delimited rest) (hrest' : Delimited rest')
    (h : text ++ rest = other ++ rest') : text = other ∧ rest = rest' := by
  obtain ⟨name, rfl, hname⟩ := htext
  obtain ⟨name', rfl, hname'⟩ := hother
  obtain ⟨rfl, heq⟩ := name_append_inj hname hname' hrest.endsName hrest'.endsName
    (List.tail_eq_of_cons_eq h)
  exact ⟨rfl, heq⟩

end Sql

end DerivedQuery
