import DerivedQuery.Json.Printer
import DerivedQuery.Log.Line
import DerivedQuery.Proofs.Json.Decimal

/-!
# Reading quoted text back

Values and log lines are written by two escapers of their own. What either writes for a character is
read as one unit that stands for this character (`Escapes`), in whatever string it stands. So the text
between two quotes is read back as it was (`Escapes.run?_quoted`), and nothing in it ends the string.
-/

namespace DerivedQuery.Json

namespace TextUnit

/-- A unit that stands for a character: the character itself, or an escape of its code. -/
def Stands (c : Char) : TextUnit → Prop
  | char d => d = c
  | escape code => code = c.toNat ∧ code < 0xD800

/-- A code below the surrogates never pairs with an escape behind it. -/
theorem resolve?_escape {β : Type} (literal escaped : Char → List β) {code : Nat}
    (h : code < 0xD800) (rest : List TextUnit) :
    resolve? literal escaped (escape code :: rest)
      = (resolve? literal escaped rest).map (escaped (Char.ofNat code) ++ ·) := by
  have hhigh : ¬(0xD800 ≤ code) := by omega
  have hlow : ¬(0xDC00 ≤ code) := by omega
  rcases rest with - | ⟨next | low, rest⟩ <;> simp [resolve?, hhigh, hlow]

/-- Units that stand for characters one by one are read as the text of these. -/
theorem text?_of_stands {text : List Char} {units : List TextUnit}
    (h : List.Forall₂ Stands text units) : text? units = some (String.ofList text) := by
  have hall : resolve? ([·]) ([·]) units = some text := by
    induction h with
    | nil => rfl
    | @cons c unit text rest hunit _ ih =>
      cases unit with
      | char d =>
        obtain rfl : d = c := hunit
        simp [resolve?, ih]
      | escape code =>
        obtain ⟨rfl, hlow⟩ := hunit
        simp [resolve?_escape _ _ hlow, ih, Char.ofNat_toNat]
  simp [text?, hall]

end TextUnit

namespace Lexeme

/-- What is written for a character in a string is read as one unit that stands for it. -/
def Escapes (escape : Char → List Char) : Prop :=
  ∀ c, ∃ unit, TextUnit.Stands c unit ∧ ∀ lexemes read,
    run? ⟨lexemes, .string read⟩ (escape c) = some ⟨lexemes, .string (unit :: read)⟩

/-- A character that needs no escape is read as itself. -/
theorem run?_plain {c : Char} (hquote : c ≠ '"') (hslash : c ≠ '\\') (hplain : ¬c.toNat < 0x20)
    (lexemes : List Lexeme) (read : List TextUnit) :
    run? ⟨lexemes, .string read⟩ [c] = some ⟨lexemes, .string (.char c :: read)⟩ := by
  simp [run?, step?, hquote, hslash, hplain]

/-- A letter behind a backslash is read as the character that it stands for. -/
theorem run?_short {letter c : Char} (hletter : letter ≠ 'u') (hc : escaped? letter = some c)
    (lexemes : List Lexeme) (read : List TextUnit) :
    run? ⟨lexemes, .string read⟩ ['\\', letter] = some ⟨lexemes, .string (.char c :: read)⟩ := by
  simp [run?, step?, hletter, hc]

theorem hexValue?_digitChar {d : Nat} (h : d < 16) : hexValue? (Nat.digitChar d) = some d := by
  have hall : ∀ d ∈ List.range 16, hexValue? (Nat.digitChar d) = some d := by decide
  exact hall d (List.mem_range.mpr h)

/-- Four hexadecimal digits are read as their number. -/
theorem run?_hex {a b c d : Nat} (ha : a < 16) (hb : b < 16) (hc : c < 16) (hd : d < 16)
    (lexemes : List Lexeme) (read : List TextUnit) :
    run? ⟨lexemes, .string read⟩
        ['\\', 'u', Nat.digitChar a, Nat.digitChar b, Nat.digitChar c, Nat.digitChar d]
      = some ⟨lexemes, .string (.escape (((a * 16 + b) * 16 + c) * 16 + d) :: read)⟩ := by
  simp [run?, step?, hexValue?_digitChar, ha, hb, hc, hd]

/-- An escape of a code below U+0100 stands for the character with this code. -/
theorem run?_code {c : Char} (h : c.toNat < 0x100) (lexemes : List Lexeme) (read : List TextUnit) :
    run? ⟨lexemes, .string read⟩
        ['\\', 'u', '0', '0', Nat.digitChar (c.toNat / 16), Nat.digitChar (c.toNat % 16)]
      = some ⟨lexemes, .string (.escape c.toNat :: read)⟩ := by
  have hhex := run?_hex (a := 0) (b := 0) (c := c.toNat / 16) (d := c.toNat % 16) (by decide)
    (by decide) (by omega) (by omega) lexemes read
  have hcode : ((0 * 16 + 0) * 16 + c.toNat / 16) * 16 + c.toNat % 16 = c.toNat := by omega
  rw [hcode] at hhex
  exact hhex

/-- The escaper of values. -/
theorem escapes_escapeChar : Escapes escapeChar := by
  intro c
  unfold escapeChar
  split_ifs with hquote hslash hback htab hline hfeed hreturn hcontrol
  · exact ⟨.char c, rfl, run?_short (by decide) (by simp [escaped?, hquote])⟩
  · exact ⟨.char c, rfl, run?_short (by decide) (by simp [escaped?, hslash])⟩
  · exact ⟨.char c, rfl, run?_short (by decide) (by simp [escaped?, hback])⟩
  · exact ⟨.char c, rfl, run?_short (by decide) (by simp [escaped?, htab])⟩
  · exact ⟨.char c, rfl, run?_short (by decide) (by simp [escaped?, hline])⟩
  · exact ⟨.char c, rfl, run?_short (by decide) (by simp [escaped?, hfeed])⟩
  · exact ⟨.char c, rfl, run?_short (by decide) (by simp [escaped?, hreturn])⟩
  · exact ⟨.escape c.toNat, ⟨rfl, by omega⟩, run?_code (by omega)⟩
  · exact ⟨.char c, rfl, run?_plain hquote hslash hcontrol⟩

theorem toNat_lt_of_isControl {c : Char} (h : Log.isControl c = true) : c.toNat < 0x100 := by
  simp [Log.isControl] at h
  omega

theorem hexDigits_four {n : Nat} (h : n < 0x100) :
    Text.Uuid.hexDigits 4 n = ['0', '0', Nat.digitChar (n / 16), Nat.digitChar (n % 16)] := by
  have hdigits : Text.Uuid.hexDigits 4 n = [Nat.digitChar (n / 4096 % 16),
      Nat.digitChar (n / 256 % 16), Nat.digitChar (n / 16 % 16), Nat.digitChar (n / 1 % 16)] := rfl
  rw [hdigits, Nat.div_eq_of_lt (by omega : n < 4096), Nat.div_eq_of_lt h, Nat.div_one,
    Nat.mod_eq_of_lt (by omega : n / 16 < 16)]
  rfl

/-- The escaper of log lines. -/
theorem escapes_log : Escapes Log.escapeChar := by
  intro c
  unfold Log.escapeChar
  split_ifs with hquote hslash hline hreturn htab hcontrol
  · exact ⟨.char c, rfl, run?_short (by decide) (by simp [escaped?, hquote])⟩
  · exact ⟨.char c, rfl, run?_short (by decide) (by simp [escaped?, hslash])⟩
  · exact ⟨.char c, rfl, run?_short (by decide) (by simp [escaped?, hline])⟩
  · exact ⟨.char c, rfl, run?_short (by decide) (by simp [escaped?, hreturn])⟩
  · exact ⟨.char c, rfl, run?_short (by decide) (by simp [escaped?, htab])⟩
  · have hlow := toNat_lt_of_isControl hcontrol
    rw [hexDigits_four hlow]
    exact ⟨.escape c.toNat, ⟨rfl, by omega⟩, run?_code hlow⟩
  · refine ⟨.char c, rfl, run?_plain hquote hslash ?_⟩
    simp [Log.isControl] at hcontrol
    omega

namespace Escapes

variable {escape : Char → List Char}

/-- What is written for a text is read as units that stand for it. -/
theorem run?_flatMap (h : Escapes escape) (text : List Char) :
    ∃ units, List.Forall₂ TextUnit.Stands text units ∧ ∀ lexemes read,
      run? ⟨lexemes, .string read⟩ (text.flatMap escape)
        = some ⟨lexemes, .string (units.reverse ++ read)⟩ := by
  induction text with
  | nil => exact ⟨[], .nil, fun _ _ => rfl⟩
  | cons c rest ih =>
    obtain ⟨unit, hunit, hrun⟩ := h c
    obtain ⟨units, hunits, hrest⟩ := ih
    refine ⟨unit :: units, .cons hunit hunits, fun lexemes read => ?_⟩
    rw [List.flatMap_cons, run?_append, hrun, Option.bind_some, hrest]
    simp

/-- **A quoted text is one lexeme, and it is read as the text that was quoted.** -/
theorem run?_quoted (h : Escapes escape) (text : List Char) :
    ∃ units, TextUnit.text? units = some (String.ofList text) ∧ ∀ lexemes,
      run? ⟨lexemes, .between⟩ ('"' :: text.flatMap escape ++ ['"'])
        = some ⟨.string units :: lexemes, .between⟩ := by
  obtain ⟨units, hunits, hrun⟩ := h.run?_flatMap text
  refine ⟨units, TextUnit.text?_of_stands hunits, fun lexemes => ?_⟩
  have hopen : step? ⟨lexemes, .between⟩ '"' = some ⟨lexemes, .string []⟩ := rfl
  rw [List.cons_append, run?, hopen, Option.bind_some, run?_append, hrun]
  simp [run?, step?]

end Escapes

end Lexeme

end DerivedQuery.Json
