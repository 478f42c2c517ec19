import Mathlib.Data.List.DropRight
import DerivedQuery.Json.Number
import DerivedQuery.Proofs.Json.Decimal

/-!
# The texts of numbers

The text of a number is a number literal, whatever the number (`Number.exists_literal`). A literal has
digits without a leading zero, perhaps a fraction, perhaps an exponent; each way to lay a decimal out
puts its digits into such parts, and the first of them is not zero.
-/

namespace DerivedQuery

namespace Json

/-- At least one digit, and digits only. -/
structure Digits (chars : List Char) : Prop where
  ne_nil : chars ≠ []
  isDigit : ∀ c ∈ chars, c.isDigit = true

namespace Digits

variable {chars others : List Char}

theorem toDigits (n : Nat) : Digits (Nat.toDigits 10 n) :=
  ⟨Nat.toDigits_ne_nil, fun _ => isDigit_of_mem_toDigits⟩

theorem singleton {c : Char} (h : c.isDigit = true) : Digits [c] := ⟨by simp, by simpa using h⟩

theorem append (h : Digits chars) (hothers : ∀ c ∈ others, c.isDigit = true) :
    Digits (chars ++ others) where
  ne_nil := by simp [h.ne_nil]
  isDigit := by
    intro c hc
    rcases List.mem_append.mp hc with hc | hc
    · exact h.isDigit c hc
    · exact hothers c hc

theorem digits? (h : Digits chars) : NumberLiteral.digits? chars = some chars := by
  have hall : chars.all Char.isDigit = true := List.all_eq_true.mpr h.isDigit
  simp [NumberLiteral.digits?, h.ne_nil, hall]

/-- Digits hold no character that is no digit. -/
theorem ne (h : Digits chars) {d : Char} (hd : d.isDigit = false) : ∀ c ∈ chars, c ≠ d :=
  fun c hc => ne_of_isDigit (h.isDigit c hc) hd

theorem bare (h : Digits chars) : ∀ c ∈ chars, Lexeme.isBare c = true :=
  fun c hc => isBare_of_isDigit (h.isDigit c hc)

end Digits

/-! ## Literals -/

/-- Digits that may stand before the point: a zero in front stands alone. -/
structure WholeDigits (chars : List Char) : Prop extends Digits chars where
  zero : chars.head? = some '0' → chars.length = 1

/-- What may stand behind the whole digits: a point and digits. -/
def IsFraction (chars : List Char) : Prop := chars = [] ∨ ∃ digits, chars = '.' :: digits ∧ Digits digits

/-- What may stand at the end: a letter, a sign and digits. -/
def IsExponent (chars : List Char) : Prop :=
  chars = [] ∨ ∃ sign digits, chars = 'e' :: sign :: digits ∧ (sign = '-' ∨ sign = '+') ∧ Digits digits

namespace NumberLiteral

variable {whole fraction exponent : List Char}

theorem whole?_of_whole (h : WholeDigits whole) : whole? whole = some whole := by
  rw [whole?, if_neg fun hc => hc.2 (h.zero hc.1), h.digits?]

theorem fraction?_isSome (h : IsFraction fraction) : ∃ digits, fraction? fraction = some digits := by
  rcases h with rfl | ⟨digits, rfl, hdigits⟩
  · exact ⟨[], rfl⟩
  · exact ⟨digits, hdigits.digits?⟩

theorem tail?_isSome (h : IsExponent exponent) : ∃ value, tail? exponent = some value := by
  rcases h with rfl | ⟨sign, digits, rfl, rfl | rfl, hdigits⟩
  · exact ⟨none, rfl⟩
  · exact ⟨some (true, digits), by simp [tail?, exponent?, hdigits.digits?]⟩
  · exact ⟨some (false, digits), by simp [tail?, exponent?, hdigits.digits?]⟩

/-- Parts that are put together are taken apart again. -/
theorem unsigned?_isSome (hwhole : WholeDigits whole) (hfraction : IsFraction fraction)
    (hexponent : IsExponent exponent) (negative : Bool) :
    ∃ literal, unsigned? negative (whole ++ fraction ++ exponent) = some literal := by
  obtain ⟨digits, hdigits⟩ := fraction?_isSome hfraction
  obtain ⟨value, hvalue⟩ := tail?_isSome hexponent
  let isMark : Char → Bool := fun c => c == 'e' || c == 'E'
  have hmark : ∀ c ∈ whole ++ fraction, (!isMark c) = true := by
    have hdigit : ∀ {chars : List Char}, Digits chars → ∀ c ∈ chars, (!isMark c) = true := by
      intro chars h c hc
      simp [isMark, h.ne (show 'e'.isDigit = false by decide) c hc,
        h.ne (show 'E'.isDigit = false by decide) c hc]
    intro c hc
    rcases List.mem_append.mp hc with hc | hc
    · exact hdigit hwhole.toDigits c hc
    · rcases hfraction with rfl | ⟨digits, rfl, hfraction⟩
      · cases hc
      · rcases List.mem_cons.mp hc with rfl | hc
        · decide
        · exact hdigit hfraction c hc
  have hpoint : ∀ c ∈ whole, (c != '.') = true := fun c hc => by
    simp [hwhole.ne (show '.'.isDigit = false by decide) c hc]
  -- The exponent starts with its letter, and the fraction with the point.
  have hexponentEnd : exponent.takeWhile (!isMark ·) = [] ∧ exponent.dropWhile (!isMark ·) = exponent := by
    rcases hexponent with rfl | ⟨sign, digits, rfl, -, -⟩
    · exact ⟨rfl, rfl⟩
    · exact ⟨rfl, rfl⟩
  have hfractionEnd : fraction.takeWhile (· != '.') = [] ∧ fraction.dropWhile (· != '.') = fraction := by
    rcases hfraction with rfl | ⟨digits, rfl, -⟩
    · exact ⟨rfl, rfl⟩
    · exact ⟨rfl, rfl⟩
  refine ⟨⟨negative, whole, digits, value⟩, ?_⟩
  simp only [unsigned?]
  rw [List.takeWhile_append_of_pos hmark, List.dropWhile_append_of_pos hmark, hexponentEnd.1,
    hexponentEnd.2, List.append_nil, List.takeWhile_append_of_pos hpoint,
    List.dropWhile_append_of_pos hpoint, hfractionEnd.1, hfractionEnd.2, List.append_nil, hvalue,
    whole?_of_whole hwhole, hdigits]
  rfl

end NumberLiteral

/-- Characters of a number literal, perhaps with a minus sign. -/
structure Numeral (chars : List Char) : Prop where
  bare : ∀ c ∈ chars, Lexeme.isBare c = true
  literal : ∃ literal, NumberLiteral.ofChars? chars = some literal

namespace Numeral

variable {whole fraction exponent : List Char}

theorem ofChars?_digits {chars rest : List Char} (h : Digits chars) :
    NumberLiteral.ofChars? (chars ++ rest) = NumberLiteral.unsigned? false (chars ++ rest) := by
  obtain ⟨c, others, rfl⟩ := List.exists_cons_of_ne_nil h.ne_nil
  have hsign : c ≠ '-' := h.ne (by decide) c List.mem_cons_self
  rw [List.cons_append, NumberLiteral.ofChars?]
  simp [hsign]

/-- WholeDigits digits, a fraction and an exponent, with or without a sign, are a number literal. -/
theorem of_parts (hwhole : WholeDigits whole) (hfraction : IsFraction fraction)
    (hexponent : IsExponent exponent) (negative : Bool) :
    Numeral ((if negative then ['-'] else []) ++ (whole ++ fraction ++ exponent)) := by
  have hbare : ∀ c ∈ whole ++ fraction ++ exponent, Lexeme.isBare c = true := by
    intro c hc
    rcases List.mem_append.mp hc with hc | hc
    · rcases List.mem_append.mp hc with hc | hc
      · exact hwhole.bare c hc
      · rcases hfraction with rfl | ⟨digits, rfl, hdigits⟩
        · cases hc
        · rcases List.mem_cons.mp hc with rfl | hc
          · decide
          · exact hdigits.bare c hc
    · rcases hexponent with rfl | ⟨sign, digits, rfl, hsign, hdigits⟩
      · cases hc
      · rcases List.mem_cons.mp hc with rfl | hc
        · decide
        · rcases List.mem_cons.mp hc with rfl | hc
          · rcases hsign with rfl | rfl <;> decide
          · exact hdigits.bare c hc
  obtain ⟨literal, hliteral⟩ := NumberLiteral.unsigned?_isSome hwhole hfraction hexponent negative
  cases negative with
  | true =>
    refine ⟨fun c hc => ?_, literal, hliteral⟩
    rcases List.mem_append.mp hc with hc | hc
    · rw [List.mem_singleton.mp hc]
      decide
    · exact hbare c hc
  | false =>
    refine ⟨hbare, literal, ?_⟩
    rw [List.append_assoc] at hliteral ⊢
    exact (ofChars?_digits hwhole.toDigits).trans hliteral

end Numeral

/-! ## Texts -/

theorem whole_toDigits (n : Nat) : WholeDigits (Nat.toDigits 10 n) where
  toDigits := .toDigits n
  zero := by
    intro hzero
    by_cases h : n = 0
    · subst h; rfl
    · exact absurd hzero (head?_toDigits_ne_zero h)

theorem whole_zero : WholeDigits ['0'] := whole_toDigits 0

/-- Digits that do not start with a zero may stand before the point. -/
theorem Digits.whole {chars : List Char} (h : Digits chars) (hzero : chars.head? ≠ some '0') :
    WholeDigits chars := { h with zero := fun heq => absurd heq hzero }

end Json

namespace Decimal

open Json (Digits WholeDigits IsFraction IsExponent)

variable {d : Decimal}

theorem leadingDigits_append (d : Decimal) :
    ∃ zeros, d.leadingDigits ++ zeros = Nat.toDigits 10 d.digits :=
  List.rdropWhile_prefix _ _

/-- The digits of a decimal that is not zero start with a digit that is not zero. -/
theorem digits_leadingDigits (h : d.digits ≠ 0) :
    Digits d.leadingDigits ∧ d.leadingDigits.head? ≠ some '0' := by
  obtain ⟨zeros, hzeros⟩ := leadingDigits_append d
  have hhead := Json.head?_toDigits_ne_zero h
  have hne : d.leadingDigits ≠ [] := by
    intro hnil
    have hall := (List.rdropWhile_eq_nil_iff (p := (· == '0'))).mp hnil
    obtain ⟨c, rest, heq⟩ := List.exists_cons_of_ne_nil (Nat.toDigits_ne_nil (n := d.digits) (b := 10))
    rw [heq] at hhead hall
    have hc := beq_iff_eq.mp (hall c List.mem_cons_self)
    exact hhead (by rw [hc]; rfl)
  refine ⟨⟨hne, fun c hc => ?_⟩, ?_⟩
  · exact Json.isDigit_of_mem_toDigits (hzeros ▸ List.mem_append_left zeros hc)
  · rwa [← hzeros, List.head?_append_of_ne_nil _ hne] at hhead

theorem isDigit_replicate (n : Nat) : ∀ c ∈ List.replicate n '0', c.isDigit = true := by
  intro c hc
  rw [List.eq_of_mem_replicate hc]
  decide

theorem isDigit_drop {digits : List Char} (h : Digits digits) (n : Nat) :
    ∀ c ∈ digits.drop n, c.isDigit = true := fun c hc => h.isDigit c (List.mem_of_mem_drop hc)

/-- Positional form has a point between digits. -/
theorem positional_parts {digits : List Char} (h : Digits digits) (hzero : digits.head? ≠ some '0')
    (magnitude : Int) :
    ∃ whole fraction, positional digits magnitude = whole ++ fraction ∧ WholeDigits whole ∧
      IsFraction fraction := by
  unfold positional
  split
  · refine ⟨['0'], _, rfl, Json.whole_zero, .inr ⟨_, rfl, ?_, ?_⟩⟩
    · simp [h.ne_nil]
    · intro c hc
      rcases List.mem_append.mp hc with hc | hc
      · exact isDigit_replicate _ c hc
      · exact h.isDigit c hc
  · obtain ⟨first, rest, rfl⟩ := List.exists_cons_of_ne_nil h.ne_nil
    dsimp only
    refine ⟨_, _, rfl, Digits.whole ⟨by simp, ?_⟩ ?_, .inr ⟨_, rfl, ?_⟩⟩
    · intro c hc
      rcases List.mem_append.mp hc with hc | hc
      · exact h.isDigit c (List.mem_of_mem_take hc)
      · exact isDigit_replicate _ c hc
    · simpa using hzero
    · split
      · exact .singleton (by decide)
      · next hne => exact ⟨by simpa using hne, isDigit_drop h _⟩

/-- Scientific form has one digit before the point. -/
theorem scientific_parts {digits : List Char} (h : Digits digits) (hzero : digits.head? ≠ some '0')
    (magnitude : Int) :
    ∃ whole fraction exponent, scientific digits magnitude = whole ++ fraction ++ exponent ∧
      WholeDigits whole ∧ IsFraction fraction ∧ IsExponent exponent := by
  unfold scientific
  obtain ⟨first, rest, rfl⟩ := List.exists_cons_of_ne_nil h.ne_nil
  refine ⟨_, _, _, rfl, Digits.whole (.singleton (h.isDigit first List.mem_cons_self)) hzero, ?_,
    .inr ⟨_, _, rfl, ?_, .toDigits _⟩⟩
  · split
    · exact .inl rfl
    · next hne => exact .inr ⟨_, rfl, by simpa using hne, isDigit_drop h 1⟩
  · split
    · exact .inl rfl
    · exact .inr rfl

theorem text_parts (layout : Layout) (d : Decimal) :
    ∃ whole fraction exponent, d.text layout = whole ++ fraction ++ exponent ∧
      WholeDigits whole ∧ IsFraction fraction ∧ IsExponent exponent := by
  unfold text
  split_ifs with hdigits
  · exact ⟨['0'], ['.', '0'], [], rfl, Json.whole_zero, .inr ⟨_, rfl, .singleton (by decide)⟩, .inl rfl⟩
  · obtain ⟨hd, hzero⟩ := digits_leadingDigits hdigits
    obtain ⟨whole, fraction, htext, hwhole, hfraction⟩ := positional_parts hd hzero d.magnitude
    exact ⟨whole, fraction, [], by rw [htext, List.append_nil], hwhole, hfraction, .inl rfl⟩
  · obtain ⟨hd, hzero⟩ := digits_leadingDigits hdigits
    exact scientific_parts hd hzero d.magnitude

end Decimal

namespace Json

/-- **The text of a number is a number literal.** -/
theorem Number.numeral_text (n : Number) : Numeral n.text := by
  cases n with
  | integer a =>
    have hdigits := fun negative m => Numeral.of_parts (whole_toDigits m) (.inl rfl) (.inl rfl) negative
    simp only [List.append_nil] at hdigits
    cases a with
    | ofNat m =>
      have htext : (toString (Int.ofNat m)).toList = Nat.toDigits 10 m := String.toList_ofList
      rw [text, htext]
      exact hdigits false m
    | negSucc m =>
      have htext : (toString (Int.negSucc m)).toList = '-' :: Nat.toDigits 10 (m + 1) := by
        change ("-" ++ String.ofList (Nat.toDigits 10 (m + 1))).toList = _
        simp
      rw [text, htext]
      exact hdigits true (m + 1)
  | float x =>
    obtain ⟨whole, fraction, exponent, htext, hwhole, hfraction, hexponent⟩ :=
      x.shortest.text_parts layout
    rw [text, Binary64.text, htext]
    exact .of_parts hwhole hfraction hexponent x.negative

end Json

end DerivedQuery
