import Mathlib.Data.List.Basic
import Mathlib.Data.List.TakeWhile
import DerivedQuery.Json.Lexeme

/-!
# Reading decimal numbers

The decimal digits of a natural number are one lexeme, and its value is that number. The automaton
of `Lexeme.scan?` reads a run of digits into its mode `bare` without looking at what follows.
-/

namespace DerivedQuery.Json

open Text (digitValue digitsValue)

/-! ## Digits of a natural number -/

/-- A digit is a character of a number literal, and no mark of one. -/
theorem isBare_of_isDigit {c : Char} (h : c.isDigit = true) : Lexeme.isBare c = true := by
  simp [Lexeme.isBare, Char.isAlphanum, h]

theorem ne_of_isDigit {c d : Char} (h : c.isDigit = true) (hd : d.isDigit = false) : c ≠ d := by
  rintro rfl
  rw [h] at hd
  cases hd

theorem isDigit_of_mem_toDigits {n : Nat} {c : Char} (h : c ∈ Nat.toDigits 10 n) :
    c.isDigit = true :=
  Nat.isDigit_of_mem_toDigits (by decide) (by decide) h

/-- The digits of a natural number stand for it. -/
theorem digitsValue_toDigits (n : Nat) : digitsValue (Nat.toDigits 10 n) = n := by
  have h := Nat.ofDigitChars_ten_toDigits (n := n)
  rw [Nat.ofDigitChars_eq_foldl] at h
  simpa only [digitsValue, digitValue, Nat.mul_comm] using h

/-- Only the number zero is written with a leading zero. -/
theorem head?_toDigits_ne_zero {n : Nat} (h : n ≠ 0) : (Nat.toDigits 10 n).head? ≠ some '0' := by
  induction n using Nat.strongRecOn with
  | _ n ih =>
    by_cases hn : n < 10
    · have hall : ∀ d ∈ List.range 10, d ≠ 0 → (Nat.toDigits 10 d).head? ≠ some '0' := by decide
      exact hall n (List.mem_range.mpr hn) h
    · rw [Nat.toDigits_of_base_le (by decide) (by omega),
        List.head?_append_of_ne_nil _ Nat.toDigits_ne_nil]
      exact ih (n / 10) (by omega) (by omega)

namespace NumberLiteral

theorem digits?_toDigits (n : Nat) : digits? (Nat.toDigits 10 n) = some (Nat.toDigits 10 n) := by
  have hne : (Nat.toDigits 10 n).isEmpty = false := by
    simp [Nat.toDigits_ne_nil]
  have hall : (Nat.toDigits 10 n).all Char.isDigit = true :=
    List.all_eq_true.mpr fun _ => isDigit_of_mem_toDigits
  simp [digits?, hne, hall]

theorem whole?_toDigits (n : Nat) : whole? (Nat.toDigits 10 n) = some (Nat.toDigits 10 n) := by
  by_cases h : n = 0
  · subst h; rfl
  · rw [whole?, if_neg fun hc => head?_toDigits_ne_zero h hc.1, digits?_toDigits]

/-- The digits of a natural number are a literal without fraction and exponent. -/
theorem ofChars?_toDigits (n : Nat) :
    ofChars? (Nat.toDigits 10 n) = some ⟨false, Nat.toDigits 10 n, [], none⟩ := by
  have hmark : ∀ c ∈ Nat.toDigits 10 n, (!(c == 'e' || c == 'E')) = true := fun c hc => by
    have hd := isDigit_of_mem_toDigits hc
    simp [ne_of_isDigit hd (show 'e'.isDigit = false by decide),
      ne_of_isDigit hd (show 'E'.isDigit = false by decide)]
  have hpoint : ∀ c ∈ Nat.toDigits 10 n, (c != '.') = true := fun c hc => by
    simp [ne_of_isDigit (isDigit_of_mem_toDigits hc) (show '.'.isDigit = false by decide)]
  have hsign : ofChars? (Nat.toDigits 10 n) = unsigned? false (Nat.toDigits 10 n) := by
    unfold ofChars?
    split
    · next rest heq =>
      have hc := isDigit_of_mem_toDigits (heq ▸ List.mem_cons_self : '-' ∈ Nat.toDigits 10 n)
      exact absurd hc (by decide)
    · rfl
  rw [hsign]
  simp only [unsigned?, List.takeWhile_eq_self_iff.mpr hmark, List.dropWhile_eq_nil_iff.mpr hmark,
    List.takeWhile_eq_self_iff.mpr hpoint, List.dropWhile_eq_nil_iff.mpr hpoint, whole?_toDigits,
    tail?, fraction?, Option.bind_eq_bind, Option.bind_some]

/-- A natural number of 64 bits is an integer. -/
theorem number?_toDigits {n : Nat} (h : n < UInt64.size) :
    number? ⟨false, Nat.toDigits 10 n, [], none⟩ = some (.integer n) := by
  simp [number?, digitsValue_toDigits, h]

end NumberLiteral

/-! ## Scanning -/

namespace Lexeme

/-- Reading goes on where it stands behind the first part of a text. -/
theorem run?_append (p : Progress) (a b : List Char) :
    run? p (a ++ b) = (run? p a).bind (run? · b) := by
  induction a generalizing p with
  | nil => rfl
  | cons c rest ih =>
    rw [List.cons_append, run?, run?]
    cases h : step? p c with
    | none => rfl
    | some q => exact ih q

/-- Bare characters are gathered. -/
theorem run?_bare (lexemes : List Lexeme) (read chars : List Char)
    (h : ∀ c ∈ chars, isBare c = true) :
    run? ⟨lexemes, .bare read⟩ chars = some ⟨lexemes, .bare (chars.reverse ++ read)⟩ := by
  induction chars generalizing read with
  | nil => rfl
  | cons c rest ih =>
    rw [run?, step?]
    simp only [h c List.mem_cons_self, ↓reduceIte, Option.bind_some]
    rw [ih (c :: read) fun d hd => h d (List.mem_cons_of_mem _ hd)]
    simp

theorem start?_of_isDigit (lexemes : List Lexeme) {c : Char} (h : c.isDigit = true) :
    start? lexemes c = some ⟨lexemes, .bare [c]⟩ := by
  have hgap : isGap c = false := by
    simp [isGap, ne_of_isDigit h (show ' '.isDigit = false by decide),
      ne_of_isDigit h (show '\t'.isDigit = false by decide),
      ne_of_isDigit h (show '\n'.isDigit = false by decide),
      ne_of_isDigit h (show '\r'.isDigit = false by decide)]
  simp [start?, hgap, ne_of_isDigit h (show '"'.isDigit = false by decide), isBare_of_isDigit h]

/-- Between lexemes, the digits of a natural number are gathered from the first one on. -/
theorem run?_toDigits (lexemes : List Lexeme) (n : Nat) :
    run? ⟨lexemes, .between⟩ (Nat.toDigits 10 n)
      = some ⟨lexemes, .bare (Nat.toDigits 10 n).reverse⟩ := by
  obtain ⟨c, rest, heq⟩ := List.exists_cons_of_ne_nil (Nat.toDigits_ne_nil (n := n) (b := 10))
  have hdigit : ∀ d ∈ c :: rest, d.isDigit = true := fun d hd =>
    isDigit_of_mem_toDigits (heq ▸ hd)
  rw [heq, run?, step?, start?_of_isDigit lexemes (hdigit c List.mem_cons_self), Option.bind_some,
    run?_bare lexemes [c] rest fun d hd => isBare_of_isDigit (hdigit d (List.mem_cons_of_mem _ hd))]
  simp

/-- The digits of a natural number are a number lexeme. -/
theorem ofBare?_toDigits (n : Nat) :
    ofBare? (Nat.toDigits 10 n) = some (.number ⟨false, Nat.toDigits 10 n, [], none⟩) := by
  have hword : ∀ c rest, c.isDigit = false → Nat.toDigits 10 n ≠ c :: rest := fun c rest hc heq =>
    absurd (isDigit_of_mem_toDigits (heq ▸ List.mem_cons_self : c ∈ Nat.toDigits 10 n))
      (by simp [hc])
  rw [ofBare?, if_neg (hword 'n' _ (by decide)), if_neg (hword 't' _ (by decide)),
    if_neg (hword 'f' _ (by decide)), NumberLiteral.ofChars?_toDigits, Option.map_some]

end Lexeme

end DerivedQuery.Json
