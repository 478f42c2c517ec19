import Mathlib.Data.List.TakeWhile
import DerivedQuery.Page.Token

/-!
# Base64 texts are read as what they were written for

Reading goes through a text in groups of four digits, as writing goes through the bytes in groups of
three, so `decode?_encode` is an induction on the groups. What has to be seen in each is that no digit is
taken for padding, and that the bits of the digits make up the bytes again. A token survives its journey
outside the program (`ContinuationToken.ofBase64?_toBase64`).
-/

namespace DerivedQuery

namespace Text.Base64

/-- A digit is neither padding nor a blank. -/
theorem digit_plain (bits : Nat) : digit bits ≠ '=' ∧ isBlank (digit bits) = false := by
  have hall : ∀ b ∈ List.range 64, digit b ≠ '=' ∧ isBlank (digit b) = false := by decide
  by_cases h : bits < 64
  · exact hall bits (List.mem_range.mpr h)
  · have hlast : digit bits = '/' := by
      rw [digit, if_neg (by omega), if_neg (by omega), if_neg (by omega), if_neg (by omega)]
    rw [hlast]
    decide

/-- A group without padding stands for three bytes. -/
theorem decode?_group {w x y z : Nat} (hw : w < 64) (hx : x < 64) (hy : y < 64) (hz : z < 64)
    (rest : List Char) :
    decode? (digit w :: digit x :: digit y :: digit z :: rest) =
      (decode? rest).map fun bytes => UInt8.ofNat (w * 4 + x / 16) ::
        UInt8.ofNat (x % 16 * 16 + y / 4) :: UInt8.ofNat (y % 4 * 64 + z) :: bytes := by
  rw [decode?]
  · simp only [digitBits?_digit hw, digitBits?_digit hx, digitBits?_digit hy, digitBits?_digit hz]
    cases decode? rest <;> rfl
  · exact fun _ hpad _ => (digit_plain z).1 hpad
  · exact fun hpad _ => (digit_plain z).1 hpad

/-- **Reading a written text gives the bytes back.** -/
theorem decode?_encode (bytes : List UInt8) : decode? (encode bytes) = some bytes := by
  fun_induction encode bytes with
  | case1 => rfl
  | case2 a =>
    have ha := a.toNat_lt
    rw [decode?, digitBits?_digit (by omega), digitBits?_digit (by omega)]
    have hlow : a.toNat % 4 * 16 % 16 = 0 := Nat.mul_mod_left _ _
    have hfirst : a.toNat / 4 * 4 + a.toNat % 4 * 16 / 16 = a.toNat := by omega
    simp only [Option.bind_eq_bind, Option.bind_some, hlow, hfirst, if_true, UInt8.ofNat_toNat]
  | case3 a b =>
    have ha := a.toNat_lt
    have hb := b.toNat_lt
    have hlow : b.toNat % 16 * 4 % 4 = 0 := Nat.mul_mod_left _ _
    have hfirst : a.toNat / 4 * 4 + (a.toNat % 4 * 16 + b.toNat / 16) / 16 = a.toNat := by omega
    have hsecond : (a.toNat % 4 * 16 + b.toNat / 16) % 16 * 16 + b.toNat % 16 * 4 / 4 = b.toNat := by
      omega
    rw [decode?]
    · rw [digitBits?_digit (by omega), digitBits?_digit (by omega), digitBits?_digit (by omega)]
      simp only [Option.bind_eq_bind, Option.bind_some, hlow, hfirst, hsecond, if_true,
        UInt8.ofNat_toNat]
    · exact (digit_plain _).1
  | case4 a b c rest ih =>
    have ha := a.toNat_lt
    have hb := b.toNat_lt
    have hc := c.toNat_lt
    have hfirst : a.toNat / 4 * 4 + (a.toNat % 4 * 16 + b.toNat / 16) / 16 = a.toNat := by omega
    have hsecond : (a.toNat % 4 * 16 + b.toNat / 16) % 16 * 16
        + (b.toNat % 16 * 4 + c.toNat / 64) / 4 = b.toNat := by omega
    have hthird : (b.toNat % 16 * 4 + c.toNat / 64) % 4 * 64 + c.toNat % 64 = c.toNat := by omega
    rw [decode?_group (by omega) (by omega) (by omega) (by omega), ih, hfirst, hsecond, hthird]
    simp only [Option.map_some, UInt8.ofNat_toNat]

/-- There are no blanks in a written text. -/
theorem isBlank_of_mem_encode {bytes : List UInt8} {c : Char} (h : c ∈ encode bytes) :
    isBlank c = false := by
  have hdigit (bits : Nat) : isBlank (digit bits) = false := (digit_plain bits).2
  have hpad : isBlank '=' = false := rfl
  fun_induction encode bytes with
  | case1 => cases h
  | case2 a =>
    simp only [List.mem_cons, List.not_mem_nil, or_false] at h
    rcases h with rfl | rfl | rfl | rfl
    · exact hdigit _
    · exact hdigit _
    · exact hpad
    · exact hpad
  | case3 a b =>
    simp only [List.mem_cons, List.not_mem_nil, or_false] at h
    rcases h with rfl | rfl | rfl | rfl
    · exact hdigit _
    · exact hdigit _
    · exact hdigit _
    · exact hpad
  | case4 a b d rest ih =>
    simp only [List.mem_cons] at h
    rcases h with rfl | rfl | rfl | rfl | hrest
    · exact hdigit _
    · exact hdigit _
    · exact hdigit _
    · exact hdigit _
    · exact ih hrest

end Text.Base64

/-- A text without blanks has none at its ends. -/
theorem Text.trim_of_not_blank {text : List Char} (h : ∀ c ∈ text, isBlank c = false) :
    trim text = text := by
  have hkeep {front : List Char} (hfront : ∀ c ∈ front, isBlank c = false) :
      front.dropWhile isBlank = front :=
    List.dropWhile_eq_self_iff.mpr fun hne => by simp [hfront _ (List.getElem_mem hne)]
  rw [trim, hkeep h, hkeep fun c hc => h c (List.mem_reverse.mp hc), List.reverse_reverse]

namespace ContinuationToken

/-- A token is read back from its text. -/
theorem ofBase64?_toBase64 (token : ContinuationToken) : ofBase64? token.toBase64 = some token := by
  rw [ofBase64?, toBase64, String.toList_ofList,
    Text.trim_of_not_blank fun c => Text.Base64.isBlank_of_mem_encode, Text.Base64.decode?_encode]
  rfl

end ContinuationToken

end DerivedQuery
