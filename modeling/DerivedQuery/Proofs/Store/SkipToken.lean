import DerivedQuery.Proofs.Json.Decimal
import DerivedQuery.Store.SkipToken

/-!
# Reading a counting token back

A token written for a number of results is read back as that number, as long as it has 64 bits. The
text of a token is ASCII, so its bytes are its characters; the text before the number and the brace
behind it are fixed, and the number is read by `Lexeme.run?_toDigits`.
-/

namespace DerivedQuery.SkipToken

open Json (Form Lexeme TextUnit)

/-- The text in front of the number. -/
def opening : List Char := "\x7b\"skip\":".toList

/-- The text of a token. -/
def text (skip : Nat) : List Char := opening ++ Nat.toDigits 10 skip ++ ['\x7d']

theorem byteChars_map {chars : List Char} (h : ∀ c ∈ chars, c.toNat < 256) :
    byteChars (chars.map fun c => c.toNat.toUInt8) = chars := by
  rw [byteChars, List.map_map]
  conv_rhs => rw [← List.map_id chars]
  refine List.map_congr_left fun c hc => ?_
  show Char.ofNat (c.toNat.toUInt8).toNat = c
  rw [Nat.toUInt8_eq, UInt8.toNat_ofNat', Nat.mod_eq_of_lt (h c hc), Char.ofNat_toNat]

theorem toNat_lt_of_isDigit {c : Char} (h : c.isDigit = true) : c.toNat < 256 := by
  simp only [Char.isDigit, Bool.and_eq_true, decide_eq_true_eq, UInt32.le_iff_toNat_le] at h
  have hmax : '9'.val.toNat = 57 := rfl
  have hnat : c.toNat = c.val.toNat := rfl
  omega

/-- The bytes of a token are the characters of its text. -/
theorem byteChars_ofSkip (skip : Nat) : byteChars (ofSkip skip).bytes = text skip := by
  refine byteChars_map fun c hc => ?_
  rcases List.mem_append.mp hc with hc | hc
  · rcases List.mem_append.mp hc with hc | hc
    · have hall : opening.all (fun d => decide (d.toNat < 256)) := by decide
      exact decide_eq_true_iff.mp (List.all_eq_true.mp hall c hc)
    · exact toNat_lt_of_isDigit (Json.isDigit_of_mem_toDigits hc)
  · rw [List.mem_singleton.mp hc]
    decide

/-- The lexemes in front of the number, the last one first. -/
def openingLexemes : List Lexeme :=
  [.colon, .string [.char 's', .char 'k', .char 'i', .char 'p'], .openObject]

theorem run?_opening :
    Lexeme.run? ⟨[], .between⟩ opening = some ⟨openingLexemes, .between⟩ := by decide

/-- The lexemes of a token are those of a record with one number. -/
theorem scan?_text (skip : Nat) :
    Lexeme.scan? (text skip) = some (openingLexemes.reverse
      ++ [.number ⟨false, Nat.toDigits 10 skip, [], none⟩, .closeObject]) := by
  rw [Lexeme.scan?, text, Lexeme.run?_append, Lexeme.run?_append, run?_opening, Option.bind_some,
    Lexeme.run?_toDigits, Option.bind_some, Lexeme.run?, Lexeme.step?]
  have hbare : Lexeme.isBare '\x7d' = false := by decide
  simp only [hbare, Bool.false_eq_true, ↓reduceIte, List.reverse_reverse, Lexeme.ofBare?_toDigits,
    Option.bind_eq_bind, Option.bind_some]
  rfl

/-- The form of a token's text. -/
theorem parse?_text {skip : Nat} (h : skip < UInt64.size) :
    Form.parse? byteText? (text skip)
      = some (.object [(some "skip", .number (some (.integer skip)))]) := by
  have hname : byteText? [.char 's', .char 'k', .char 'i', .char 'p'] = some "skip" := by decide
  simp only [Form.parse?, scan?_text, openingLexemes, List.reverse_cons, List.reverse_nil,
    List.nil_append, List.cons_append, Option.bind_eq_bind, Option.bind_some, Form.run?, Form.step?,
    Form.startValue?, Form.ofLexeme?, hname, Option.map_some,
    Json.NumberLiteral.number?_toDigits h]

theorem natBelow?_nat {bound n : Nat} (h : n < bound) :
    Form.natBelow? bound (.number (some (.integer n))) = some n := by
  simp [Form.natBelow?, h]

/-- A token whose text is a record with one field skips what the field says. -/
theorem skip?_of_parse {token : ContinuationToken} {form field : Form}
    (hform : Form.parse? byteText? (byteChars token.bytes) = some form)
    (hfield : form.record? ["skip"] = some [some field]) :
    skip? token = field.natBelow? UInt64.size := by
  rw [skip?, hform, Option.bind_eq_bind, Option.bind_some, hfield, Option.bind_eq_bind,
    Option.bind_some]
  rfl

/-- **A token is read back as the number that it was written for.** -/
theorem skip?_ofSkip {skip : Nat} (h : skip < UInt64.size) : skip? (ofSkip skip) = some skip := by
  have hform : Form.parse? byteText? (byteChars (ofSkip skip).bytes) = _ :=
    byteChars_ofSkip skip ▸ parse?_text h
  rw [skip?_of_parse hform rfl, natBelow?_nat h]

end DerivedQuery.SkipToken
