import Mathlib.Algebra.Order.Ring.Nat
import Mathlib.Data.Nat.Log
import DerivedQuery.Number.Binary64

/-!
# Rounding integers to floats

Rounding keeps the order of integers (`rank_ofInt_le`), though it may make different ones equal. Below
`2 ^ 53` it does not: there every integer is a float (`rank_ofInt_lt`).

An integer is rounded within its binade, that of its leading bit: the integers of a binade go to the
patterns between two multiples of `binade`, in order (`mantissa_mono`), and those of a larger binade to
patterns that are at least as large (`binade_le_mantissa`, `mantissa_le`).
-/

namespace DerivedQuery.Binary64

/-! ## Quotients -/

variable {num num' den : Nat}

theorem roundQuotient_mono (h : num ≤ num') :
    roundQuotient num den ≤ roundQuotient num' den := by
  have hquotient : num / den ≤ num' / den := Nat.div_le_div_right h
  have hnum := Nat.div_add_mod num den
  have hnum' := Nat.div_add_mod num' den
  unfold roundQuotient
  simp only [Bool.or_eq_true, Bool.and_eq_true, decide_eq_true_eq, beq_iff_eq]
  rcases hquotient.lt_or_eq with hlt | heq
  · split <;> split <;> omega
  · -- With the same quotient, only the larger one can be rounded up alone.
    have hmod : num % den ≤ num' % den := by
      rw [heq] at hnum
      omega
    rw [heq]
    split <;> split <;> omega

theorem roundQuotient_mul (a : Nat) (hden : 0 < den) : roundQuotient (a * den) den = a := by
  unfold roundQuotient
  rw [Nat.mul_div_cancel a hden, Nat.mul_mod_left]
  refine if_neg ?_
  simp only [Bool.or_eq_true, Bool.and_eq_true, decide_eq_true_eq, beq_iff_eq]
  omega

theorem roundQuotient_mul_mul {k : Nat} (hk : 0 < k) :
    roundQuotient (num * k) (den * k) = roundQuotient num den := by
  have htwice : 2 * (num % den * k) = 2 * (num % den) * k := (Nat.mul_assoc 2 _ k).symm
  have hlt : den * k < 2 * (num % den) * k ↔ den < 2 * (num % den) := Nat.mul_lt_mul_right hk
  have heq : 2 * (num % den) * k = den * k ↔ 2 * (num % den) = den :=
    Nat.mul_left_inj (Nat.ne_of_gt hk)
  unfold roundQuotient
  simp only [Nat.mul_div_mul_right _ _ hk, Nat.mul_mod_mul_right, htwice, hlt, Bool.or_eq_true,
    Bool.and_eq_true, decide_eq_true_eq, beq_iff_eq, heq]

/-- A rounded quotient is half a unit away at most. -/
theorem roundQuotient_near (num : Nat) (hden : 0 < den) :
    2 * (den * roundQuotient num den) ≤ 2 * num + den ∧
      2 * num ≤ 2 * (den * roundQuotient num den) + den := by
  have hnum := Nat.div_add_mod num den
  have hmod := Nat.mod_lt num hden
  unfold roundQuotient
  simp only [Bool.or_eq_true, Bool.and_eq_true, decide_eq_true_eq, beq_iff_eq]
  split
  · rw [Nat.mul_add]
    omega
  · omega

/-! ## Binades -/

variable {n n' : Nat}

/-- The rounded bits of an integer, of which the leading one is not counted in the pattern. The quotient
is the same at any scale. -/
def mantissa (scale n : Nat) : Nat :=
  roundQuotient (n * Nat.pow 2 (scale + 52)) (Nat.pow 2 (Nat.log2 n + scale))

theorem binade_eq : binade = 2 ^ 52 := rfl

theorem pow_le_mul_pow (hn : n ≠ 0) (scale : Nat) :
    Nat.pow 2 (Nat.log2 n + scale + 52) ≤ n * Nat.pow 2 (scale + 52) := by
  rw [Nat.pow_eq, Nat.pow_eq, Nat.add_assoc, Nat.pow_add]
  exact Nat.mul_le_mul_right _ (Nat.log2_self_le hn)

theorem mul_pow_lt_pow (n scale : Nat) :
    n * Nat.pow 2 (scale + 52) < Nat.pow 2 (Nat.log2 n + scale + 53) := by
  have hpow : 2 ^ (Nat.log2 n + scale + 53) = 2 ^ (Nat.log2 n + 1) * 2 ^ (scale + 52) := by
    rw [← Nat.pow_add]
    congr 1
    omega
  rw [Nat.pow_eq, Nat.pow_eq, hpow]
  exact Nat.mul_lt_mul_of_pos_right Nat.lt_log2_self (Nat.two_pow_pos _)

theorem nearest_zero : nearest 0 1 = 0 := by
  unfold nearest
  exact if_pos rfl

theorem smallestPlace : 1074 = 1022 + 52 := rfl

theorem lastPlace_one (hn : n ≠ 0) : lastPlace n 1 = Nat.log2 n + 1022 := by
  have hone : Nat.log2 1 = 0 := by decide
  unfold lastPlace
  rw [hone, Nat.sub_zero]
  refine if_neg (Nat.not_lt.mpr ?_)
  rw [Nat.one_mul, smallestPlace]
  exact pow_le_mul_pow hn 1022

theorem nearest_one (hn : n ≠ 0) :
    nearest n 1 = min infinity ((Nat.log2 n + 1022) * binade + mantissa 1022 n) := by
  unfold nearest
  rw [if_neg hn, lastPlace_one hn, Nat.one_mul, smallestPlace]
  rfl

variable (scale : Nat)

/-- An integer of more than 53 bits is rounded to the multiples of a power of two. -/
theorem mantissa_of_log2 {k : Nat} (h : Nat.log2 n = k + 52) :
    mantissa scale n = roundQuotient n (2 ^ k) := by
  have hscale : k + 52 + scale = k + (scale + 52) := by omega
  rw [mantissa, h, hscale, Nat.pow_eq, Nat.pow_eq, Nat.pow_add 2 k (scale + 52),
    roundQuotient_mul_mul (Nat.two_pow_pos _)]

theorem mantissa_mono (h : n ≤ n') (hlog : Nat.log2 n = Nat.log2 n') :
    mantissa scale n ≤ mantissa scale n' := by
  unfold mantissa
  rw [hlog]
  exact roundQuotient_mono (Nat.mul_le_mul_right _ h)

theorem binade_le_mantissa (hn : n ≠ 0) : binade ≤ mantissa scale n := by
  rw [← roundQuotient_mul binade (Nat.two_pow_pos (Nat.log2 n + scale))]
  refine roundQuotient_mono ?_
  rw [binade_eq, Nat.mul_comm, ← Nat.pow_add]
  exact pow_le_mul_pow hn scale

theorem mantissa_le (n : Nat) : mantissa scale n ≤ 2 * binade := by
  rw [← roundQuotient_mul (2 * binade) (Nat.two_pow_pos (Nat.log2 n + scale))]
  refine roundQuotient_mono ?_
  have htwice : 2 * binade = 2 ^ 53 := rfl
  rw [htwice, Nat.mul_comm (2 ^ 53), ← Nat.pow_add]
  exact Nat.le_of_lt (mul_pow_lt_pow n scale)

theorem log2_mono (h : n ≤ n') : Nat.log2 n ≤ Nat.log2 n' := by
  rw [Nat.log2_eq_log_two, Nat.log2_eq_log_two]
  exact Nat.log_mono_right h

/-- Rounding keeps the order of natural numbers. -/
theorem nearest_mono (h : n ≤ n') : nearest n 1 ≤ nearest n' 1 := by
  by_cases hn : n = 0
  · subst hn
    exact Nat.zero_le _
  · have hn' : n' ≠ 0 := by omega
    rw [nearest_one hn, nearest_one hn']
    refine min_le_min_left infinity ?_
    rcases (log2_mono h).lt_or_eq with hlt | heq
    · have hlow := binade_le_mantissa 1022 hn'
      have hhigh := mantissa_le 1022 n
      unfold binade at hlow hhigh ⊢
      omega
    · have hmantissa := mantissa_mono 1022 h heq
      rw [heq]
      omega

/-- The floats next to an integer of more than 53 bits are multiples of a power of two. -/
theorem nearest_of_le {k : Nat} (hlow : 2 ^ (k + 52) ≤ n) (hhigh : n < 2 ^ (k + 53)) :
    nearest n 1 = min infinity ((k + 1074) * binade + roundQuotient n (2 ^ k)) := by
  have hn : n ≠ 0 := Nat.ne_of_gt ((Nat.two_pow_pos _).trans_le hlow)
  have hlog : Nat.log2 n = k + 52 := (Nat.log2_eq_iff hn).mpr ⟨hlow, hhigh⟩
  rw [nearest_one hn, mantissa_of_log2 1022 hlog, hlog]

/-! ## Exact integers -/

theorem log2_le_of_lt (hn : n ≠ 0) (h : n < 2 ^ 53) : Nat.log2 n ≤ 52 :=
  Nat.le_of_lt_succ ((Nat.log2_lt hn).mpr h)

/-- An integer of at most 53 bits is not rounded. -/
theorem mantissa_of_lt (hn : n ≠ 0) (h : n < 2 ^ 53) :
    mantissa scale n = n * 2 ^ (52 - Nat.log2 n) := by
  have hlog := log2_le_of_lt hn h
  have hexact : n * Nat.pow 2 (scale + 52)
      = n * 2 ^ (52 - Nat.log2 n) * Nat.pow 2 (Nat.log2 n + scale) := by
    rw [Nat.pow_eq, Nat.pow_eq, Nat.mul_assoc, ← Nat.pow_add]
    congr 2
    omega
  rw [mantissa, hexact, Nat.pow_eq]
  exact roundQuotient_mul _ (Nat.two_pow_pos _)

theorem nearest_of_lt (hn : n ≠ 0) (h : n < 2 ^ 53) :
    nearest n 1 = (Nat.log2 n + 1022) * binade + n * 2 ^ (52 - Nat.log2 n) := by
  have hlog := log2_le_of_lt hn h
  have hhigh := mantissa_le 1022 n
  rw [nearest_one hn, mantissa_of_lt 1022 hn h] at *
  refine min_eq_right ?_
  unfold binade at hhigh ⊢
  unfold infinity
  omega

/-- Rounding keeps natural numbers of at most 53 bits apart. -/
theorem nearest_lt (h : n < n') (hn' : n' < 2 ^ 53) : nearest n 1 < nearest n' 1 := by
  have hpos : n' ≠ 0 := by omega
  rw [nearest_of_lt hpos hn']
  by_cases hn : n = 0
  · subst hn
    rw [nearest_zero]
    unfold binade
    omega
  · rw [nearest_of_lt hn (h.trans hn')]
    rcases (log2_mono h.le).lt_or_eq with hlt | heq
    · have hlow : binade ≤ n' * 2 ^ (52 - Nat.log2 n') := by
        rw [← mantissa_of_lt 1022 hpos hn']
        exact binade_le_mantissa 1022 hpos
      have hhigh : n * 2 ^ (52 - Nat.log2 n) < 2 * binade := by
        have hlog := log2_le_of_lt hn (h.trans hn')
        calc n * 2 ^ (52 - Nat.log2 n)
            < 2 ^ (Nat.log2 n + 1) * 2 ^ (52 - Nat.log2 n) :=
              Nat.mul_lt_mul_of_pos_right Nat.lt_log2_self (Nat.two_pow_pos _)
          _ = 2 ^ 53 := by
            rw [← Nat.pow_add]
            congr 1
            omega
      unfold binade at hlow hhigh ⊢
      omega
    · rw [heq]
      exact Nat.add_lt_add_left (Nat.mul_lt_mul_of_pos_right h (Nat.two_pow_pos _)) _

/-! ## Order -/

theorem rank_ofInt_natCast (n : Nat) : (ofInt n).rank = nearest n 1 := by
  have hsign : ¬ (n : Int) < 0 := Int.not_lt.mpr (Int.natCast_nonneg n)
  simp only [rank, ofInt, hsign, decide_false, Bool.false_eq_true, if_false, Int.natAbs_natCast]

theorem rank_ofInt_neg_natCast (n : Nat) : (ofInt (-n)).rank = -(nearest n 1 : Int) := by
  by_cases hn : n = 0
  · subst hn
    rw [Int.natCast_zero, Int.neg_zero, ← Int.natCast_zero, rank_ofInt_natCast, nearest_zero]
    rfl
  · have hsign : -(n : Int) < 0 := by omega
    simp only [rank, ofInt, hsign, decide_true, if_true, Int.natAbs_neg, Int.natAbs_natCast]

/-- **Rounding keeps the order of integers.** -/
theorem rank_ofInt_le {i j : Int} (h : i ≤ j) : (ofInt i).rank ≤ (ofInt j).rank := by
  obtain ⟨n, rfl | rfl⟩ := Int.eq_nat_or_neg i <;> obtain ⟨m, rfl | rfl⟩ := Int.eq_nat_or_neg j <;>
    simp only [rank_ofInt_natCast, rank_ofInt_neg_natCast]
  · exact Int.ofNat_le.mpr (nearest_mono (Int.ofNat_le.mp h))
  · -- Only zero is neither negative nor positive.
    obtain ⟨rfl, rfl⟩ : n = 0 ∧ m = 0 := by omega
    rw [nearest_zero]
    rfl
  · omega
  · have hnearest : nearest m 1 ≤ nearest n 1 := nearest_mono (by omega)
    omega

/-- **Integers of at most 53 bits stay apart.** -/
theorem rank_ofInt_lt {i j : Int} (h : i < j) (hi : i.natAbs < 2 ^ 53) (hj : j.natAbs < 2 ^ 53) :
    (ofInt i).rank < (ofInt j).rank := by
  obtain ⟨n, rfl | rfl⟩ := Int.eq_nat_or_neg i <;> obtain ⟨m, rfl | rfl⟩ := Int.eq_nat_or_neg j <;>
    simp only [Int.natAbs_neg, Int.natAbs_natCast] at hi hj <;>
    simp only [rank_ofInt_natCast, rank_ofInt_neg_natCast]
  · exact Int.ofNat_lt.mpr (nearest_lt (Int.ofNat_lt.mp h) hj)
  · omega
  · rcases Nat.eq_zero_or_pos n with rfl | hn
    · have hnearest : nearest 0 1 < nearest m 1 := nearest_lt (by omega) hj
      rw [nearest_zero] at hnearest ⊢
      omega
    · have hnearest : nearest 0 1 < nearest n 1 := nearest_lt hn hi
      omega
  · have hnearest : nearest m 1 < nearest n 1 := nearest_lt (by omega) hi
    omega

end DerivedQuery.Binary64
