import Mathlib.Data.List.Basic
import DerivedQuery.Text.Case

/-!
# Letters and digits of ASCII

Letters and digits are so few that what is said of them can be tried on all characters of ASCII
(`Text.of_isAlphanum`). For them the case mappings are those of single characters, and the two cases of a
letter determine each other.
-/

namespace DerivedQuery.Text

variable {c : Char} {text : List Char}

theorem isAlphanum_of_isUpper (h : c.isUpper = true) : c.isAlphanum = true := by
  change (c.isUpper || c.isLower || c.isDigit) = true
  rw [h, Bool.true_or, Bool.true_or]

theorem isAlphanum_of_isLower (h : c.isLower = true) : c.isAlphanum = true := by
  change (c.isUpper || c.isLower || c.isDigit) = true
  rw [h, Bool.or_true, Bool.true_or]

theorem isAlphanum_of_isDigit (h : c.isDigit = true) : c.isAlphanum = true := by
  change (c.isUpper || c.isLower || c.isDigit) = true
  rw [h, Bool.or_true]

/-- Letters and digits lie between `0` and `z`. -/
theorem toNat_of_isAlphanum (h : c.isAlphanum = true) : 48 ≤ c.toNat ∧ c.toNat ≤ 122 := by
  have hval : ∀ {low high : UInt32}, 48 ≤ low → high ≤ 122 → low ≤ c.val ∧ c.val ≤ high →
      48 ≤ c.val ∧ c.val ≤ 122 :=
    fun hlow hhigh hc => ⟨UInt32.le_trans hlow hc.1, UInt32.le_trans hc.2 hhigh⟩
  have hbounds : 48 ≤ c.val ∧ c.val ≤ 122 := by
    rcases Bool.or_eq_true_iff.mp h with hletter | hdigit
    · rcases Bool.or_eq_true_iff.mp hletter with hupper | hlower
      · exact hval (by decide) (by decide) (of_decide_eq_true hupper)
      · obtain ⟨hlow, hhigh⟩ := Bool.and_eq_true_iff.mp hlower
        exact hval (by decide) (by decide) ⟨of_decide_eq_true hlow, of_decide_eq_true hhigh⟩
    · obtain ⟨hlow, hhigh⟩ := Bool.and_eq_true_iff.mp hdigit
      exact hval (by decide) (by decide) ⟨of_decide_eq_true hlow, of_decide_eq_true hhigh⟩
  exact ⟨UInt32.le_iff_toNat_le.mp hbounds.1, UInt32.le_iff_toNat_le.mp hbounds.2⟩

theorem toNat_lt_of_isAlphanum (h : c.isAlphanum = true) : c.toNat < 128 :=
  Nat.lt_of_le_of_lt (toNat_of_isAlphanum h).2 (by decide)

theorem isUppercase_of_isAlphanum (h : c.isAlphanum = true) : isUppercase c = c.isUpper :=
  if_pos (toNat_lt_of_isAlphanum h)

theorem toLower_of_isAlphanum (h : c.isAlphanum = true) : toLower c = [c.toLower] :=
  if_pos (toNat_lt_of_isAlphanum h)

theorem toUpper_of_isAlphanum (h : c.isAlphanum = true) : toUpper c = [c.toUpper] :=
  if_pos (toNat_lt_of_isAlphanum h)

/-- What all characters of ASCII pass, letters and digits pass. -/
theorem of_isAlphanum {p : Char → Bool} (hp : (List.range 128).all fun n => p (Char.ofNat n))
    (h : c.isAlphanum = true) : p c = true := by
  have hc := List.all_eq_true.mp hp c.toNat (List.mem_range.mpr (toNat_lt_of_isAlphanum h))
  rwa [Char.ofNat_toNat] at hc

theorem isUppercase_of_isDigit (h : c.isDigit = true) : isUppercase c = false := by
  have halphanum := isAlphanum_of_isDigit h
  have hdigit := of_isAlphanum (p := fun c => !c.isDigit || !c.isUpper) (by decide +kernel) halphanum
  rwa [h, Bool.not_true, Bool.false_or, Bool.not_eq_true',
    ← isUppercase_of_isAlphanum halphanum] at hdigit

theorem isAlphanum_toLower (h : c.isAlphanum = true) : c.toLower.isAlphanum = true := by
  have hlower := of_isAlphanum (p := fun c => !c.isAlphanum || c.toLower.isAlphanum)
    (by decide +kernel) h
  rwa [h, Bool.not_true, Bool.false_or] at hlower

/-- A lowercase letter has an uppercase one, and is its lowercase one. -/
theorem toUpper_of_isLower (h : c.isLower = true) :
    c.toUpper.isUpper = true ∧ c.toUpper.toLower = c := by
  have hupper := of_isAlphanum
    (p := fun c => !c.isLower || (c.toUpper.isUpper && c.toUpper.toLower == c)) (by decide +kernel)
    (isAlphanum_of_isLower h)
  rwa [h, Bool.not_true, Bool.false_or, Bool.and_eq_true, beq_iff_eq] at hupper

/-- An uppercase letter is not a lowercase one, and is the uppercase one of its own lowercase one. -/
theorem toLower_of_isUpper (h : c.isUpper = true) :
    c.isLower = false ∧ c.toLower.toUpper = c := by
  have hlower := of_isAlphanum
    (p := fun c => !c.isUpper || (!c.isLower && c.toLower.toUpper == c)) (by decide +kernel)
    (isAlphanum_of_isUpper h)
  rwa [h, Bool.not_true, Bool.false_or, Bool.and_eq_true, Bool.not_eq_true', beq_iff_eq] at hlower

theorem notMem_of_isAlphanum {mark : Char} (hmark : mark.isAlphanum = false)
    (h : ∀ c ∈ text, c.isAlphanum = true) : mark ∉ text := by
  intro hmem
  rw [h mark hmem] at hmark
  cases hmark

end DerivedQuery.Text
