import DerivedQuery.Text.Case

/-!
# Lower case of a part of a text

In lower case each character is mapped by itself, but for the capital sigma, which is `ς` where a word
ends and `σ` elsewhere. So what a part of a text becomes depends on what stands around it, but only on
whether a word goes on there (`lowercasePart`), and it is as long as the lower case of the part alone.

The two differ exactly if a capital sigma at one end of the part is cut off from its word
(`CutsSigma`): it ends the last word of the part, and the word goes on behind the part, or it comes first
in the part and ends a word that starts before it (`lowercase_append_append`).
-/

namespace DerivedQuery.Text

/-- The last character that is not ignorable, of the text or else before it, is a cased one. -/
def endsInWord (inWord : Bool) : List Char → Bool
  | [] => inWord
  | c :: rest => endsInWord (if isCaseIgnorable c then inWord else isCased c) rest

/-- The first character that is not ignorable, of the text or else behind it, is a cased one. -/
def startsWordOr (followed : Bool) (text : List Char) : Bool :=
  (text.find? (!isCaseIgnorable ·)).elim followed isCased

/-- The lower case of a part of a text. What is before the part ends in a word if `inWord`, and what is
behind it starts with one if `followed`. -/
def lowercasePart (inWord followed : Bool) : List Char → List Char
  | [] => []
  | c :: rest =>
    (if c = 'Σ' then [if inWord && !startsWordOr followed rest then 'ς' else 'σ'] else toLower c) ++
      lowercasePart (if isCaseIgnorable c then inWord else isCased c) followed rest

/-- A capital sigma at an end of a part is cut off from its word. -/
def CutsSigma (before part behind : List Char) : Prop :=
  (∃ word marks, part = word ++ 'Σ' :: marks ∧ marks.all isCaseIgnorable ∧
    endsInWord false word ∧ startsCased behind) ∨
  ∃ marks rest, part = marks ++ 'Σ' :: rest ∧ marks.all isCaseIgnorable ∧
    endsInWord false before ∧ startsCased (rest ++ behind) = false

variable {text before part behind : List Char} {inWord followed : Bool}

/-! ## Words at the ends of a text -/

theorem startsCased_eq (text : List Char) : startsCased text = startsWordOr false text := by
  unfold startsCased startsWordOr
  cases text.find? (!isCaseIgnorable ·) <;> rfl

theorem startsWordOr_append (followed : Bool) (text behind : List Char) :
    startsWordOr followed (text ++ behind) = startsWordOr (startsWordOr followed behind) text := by
  unfold startsWordOr
  rw [List.find?_append]
  cases text.find? (!isCaseIgnorable ·) <;> rfl

theorem startsCased_append (text behind : List Char) :
    startsCased (text ++ behind) = startsWordOr (startsCased behind) text := by
  simp only [startsCased_eq, startsWordOr_append]

/-- What is behind a text matters only if all characters of the text are ignorable. -/
theorem startsWordOr_eq (followed : Bool) (text : List Char) :
    startsWordOr followed text
      = if text.all isCaseIgnorable then followed else startsCased text := by
  induction text with
  | nil => simp [startsWordOr]
  | cons c text ih =>
    rw [startsCased_eq] at ih ⊢
    unfold startsWordOr at ih ⊢
    by_cases hc : isCaseIgnorable c
    · simpa [hc] using ih
    · simp [hc]

/-- What is before a text matters only if all characters of the text are ignorable. -/
theorem endsInWord_eq (inWord : Bool) (text : List Char) :
    endsInWord inWord text
      = if text.all isCaseIgnorable then inWord else endsInWord false text := by
  induction text generalizing inWord with
  | nil => rfl
  | cons c text ih =>
    by_cases hc : isCaseIgnorable c
    · simp only [endsInWord, hc, ↓reduceIte, List.all_cons, Bool.true_and]
      exact ih inWord
    · simp [endsInWord, hc]

/-! ## Parts -/

theorem lowercaseFrom_append (inWord : Bool) (text behind : List Char) :
    lowercaseFrom inWord (text ++ behind)
      = lowercasePart inWord (startsCased behind) text
        ++ lowercaseFrom (endsInWord inWord text) behind := by
  induction text generalizing inWord with
  | nil => rfl
  | cons c text ih =>
    simp only [List.cons_append, lowercaseFrom, lowercasePart, endsInWord, ih, startsCased_append,
      List.append_assoc]

theorem lowercaseFrom_eq (inWord : Bool) (text : List Char) :
    lowercaseFrom inWord text = lowercasePart inWord false text := by
  have happend := lowercaseFrom_append inWord text []
  rwa [List.append_nil, lowercaseFrom, List.append_nil] at happend

/-- What stands around a part does not change how long its lower case is. -/
theorem length_lowercasePart (inWord followed inWord' followed' : Bool) (part : List Char) :
    (lowercasePart inWord followed part).length = (lowercasePart inWord' followed' part).length := by
  induction part generalizing inWord inWord' with
  | nil => rfl
  | cons c part ih =>
    simp only [lowercasePart, List.length_append]
    rw [ih]
    split <;> rfl

/-- Two lower cases of a part are the same if they are at every capital sigma. -/
theorem lowercasePart_eq_iff {inWord' followed' : Bool} :
    lowercasePart inWord followed part = lowercasePart inWord' followed' part ↔
      ∀ word rest, part = word ++ 'Σ' :: rest →
        (endsInWord inWord word && !startsWordOr followed rest)
          = (endsInWord inWord' word && !startsWordOr followed' rest) := by
  induction part generalizing inWord inWord' with
  | nil => simp [lowercasePart]
  | cons c part ih =>
    have hlength : ∀ x y : Bool,
        (if c = 'Σ' then [if x then 'ς' else 'σ'] else toLower c).length
          = (if c = 'Σ' then [if y then 'ς' else 'σ'] else toLower c).length := by
      intro x y
      split <;> rfl
    rw [lowercasePart, lowercasePart]
    constructor
    · intro h word rest hpart
      obtain ⟨hfirst, hbehind⟩ := List.append_inj h (hlength _ _)
      cases word with
      | nil =>
        obtain ⟨rfl, rfl⟩ := List.cons_eq_cons.mp hpart
        simp only [↓reduceIte, List.cons.injEq, and_true] at hfirst
        unfold endsInWord
        generalize (inWord && !startsWordOr followed part) = x at hfirst ⊢
        generalize (inWord' && !startsWordOr followed' part) = y at hfirst ⊢
        cases x <;> cases y <;> simp at hfirst ⊢
      | cons d word =>
        obtain ⟨rfl, rfl⟩ := List.cons_eq_cons.mp hpart
        exact ih.mp hbehind word rest rfl
    · intro h
      congr 1
      · split
        · next hsigma =>
          have hfirst := h [] part (by rw [hsigma]; rfl)
          unfold endsInWord at hfirst
          rw [hfirst]
        · rfl
      · refine ih.mpr fun word rest hpart => ?_
        exact h (c :: word) rest (by rw [hpart]; rfl)

/-- A part has its own lower case just where no capital sigma is cut off from its word. -/
theorem lowercasePart_eq_lowercase_iff :
    lowercasePart (endsInWord false before) (startsCased behind) part = lowercase part ↔
      ¬ CutsSigma before part behind := by
  rw [lowercase, lowercaseFrom_eq, lowercasePart_eq_iff, CutsSigma, not_or]
  constructor
  · intro h
    constructor
    · rintro ⟨word, marks, hpart, hmarks, hword, hbehind⟩
      have hsigma := h word marks hpart
      rw [startsWordOr_eq, startsWordOr_eq false, if_pos hmarks, if_pos hmarks, hword,
        hbehind] at hsigma
      simp at hsigma
    · rintro ⟨marks, rest, hpart, hmarks, hword, hrest⟩
      have hsigma := h marks rest hpart
      rw [startsCased_append] at hrest
      rw [hrest, endsInWord_eq _ marks, endsInWord_eq false marks, if_pos hmarks, if_pos hmarks,
        hword] at hsigma
      simp at hsigma
  · rintro ⟨hlast, hfirst⟩ word rest hpart
    rw [endsInWord_eq _ word, startsWordOr_eq _ rest, startsWordOr_eq false rest]
    -- What stands around the part tells only if nothing within the part does, on either side.
    by_cases hmarks : word.all isCaseIgnorable
    · have hnone : endsInWord false word = false := by rw [endsInWord_eq, if_pos hmarks]
      cases hword : endsInWord false before with
      | false => rw [if_pos hmarks, hnone, Bool.false_and, Bool.false_and]
      | true =>
        cases hcased : startsCased (rest ++ behind) with
        | false => exact absurd ⟨word, rest, hpart, hmarks, hword, hcased⟩ hfirst
        | true =>
          rw [startsCased_append, startsWordOr_eq] at hcased
          rw [hcased, hnone, Bool.not_true, Bool.and_false, Bool.false_and]
    · by_cases hrest : rest.all isCaseIgnorable
      · cases hword : endsInWord false word with
        | false => rw [if_neg hmarks, Bool.false_and, Bool.false_and]
        | true =>
          cases hbehind : startsCased behind with
          | false => rw [if_neg hmarks]
          | true => exact absurd ⟨word, rest, hpart, hrest, hword, hbehind⟩ hlast
      · rw [if_neg hmarks, if_neg hrest, if_neg hrest]

/-- **The lower case of a text has, where a part of it stands, something as long as the lower case of the
part, which is that lower case unless a capital sigma is cut off from its word.** -/
theorem lowercase_append_append (before part behind : List Char) :
    ∃ middle,
      lowercase (before ++ part ++ behind)
        = lowercasePart false (startsCased (part ++ behind)) before ++ middle
          ++ lowercaseFrom (endsInWord (endsInWord false before) part) behind ∧
      middle.length = (lowercase part).length ∧
      (middle = lowercase part ↔ ¬ CutsSigma before part behind) := by
  refine ⟨lowercasePart (endsInWord false before) (startsCased behind) part, ?_, ?_,
    lowercasePart_eq_lowercase_iff⟩
  · rw [lowercase, List.append_assoc, lowercaseFrom_append, lowercaseFrom_append, List.append_assoc]
  · rw [lowercase, lowercaseFrom_eq]
    exact length_lowercasePart _ _ _ _ part

/-- A text without a capital sigma has one lower case everywhere. -/
theorem CutsSigma.mem (h : CutsSigma before part behind) : 'Σ' ∈ part := by
  rcases h with ⟨word, marks, rfl, -⟩ | ⟨marks, rest, rfl, -⟩
  · simp
  · simp

end DerivedQuery.Text
