import DerivedQuery.Predicate.Eval
import DerivedQuery.Proofs.Predicate.Order

/-!
# Comparing integers

Two signed 64-bit integers compare exactly. Other integers compare by the nearest floats, and from `2^63`
on these are multiples of 2048, so two that have the same nearest multiple compare as equal: they are
`Blurred`. They never compare the wrong way round.
-/

namespace DerivedQuery

/-! ## Floats from `2^63` on -/

namespace Binary64

variable {n : Nat}

theorem roundQuotient_low (h : int64Half ≤ n + 512) (h' : n < int64Half) :
    roundQuotient n 1024 = 2 * binade ∧ roundQuotient n 2048 = binade := by
  unfold int64Half at h h'
  unfold roundQuotient binade
  simp only [Bool.or_eq_true, Bool.and_eq_true, decide_eq_true_eq, beq_iff_eq]
  constructor
  · split <;> omega
  · split <;> omega

/-- From `2^63` on, integers are rounded to multiples of 2048, and those right below go up to `2^63`. -/
theorem nearest_of_half_le (hlow : int64Half ≤ n + 512) (hhigh : n < UInt64.size) :
    nearest n 1 = 1085 * binade + roundQuotient n 2048 := by
  by_cases h : int64Half ≤ n
  · have hnearest : nearest n 1 = min infinity (1085 * binade + roundQuotient n 2048) :=
      nearest_of_le (k := 11) h hhigh
    have hround : roundQuotient n 2048 ≤ roundQuotient (2 ^ 53 * 2048) 2048 :=
      roundQuotient_mono hhigh.le
    rw [roundQuotient_mul _ (by decide)] at hround
    rw [hnearest]
    refine min_eq_right ?_
    unfold binade infinity
    omega
  · obtain ⟨hround, hround'⟩ := roundQuotient_low hlow (Nat.lt_of_not_le h)
    have hbinade : 2 ^ (10 + 52) ≤ n := by
      unfold int64Half at hlow
      omega
    have hnearest : nearest n 1 = min infinity (1084 * binade + roundQuotient n 1024) :=
      nearest_of_le (k := 10) hbinade (Nat.lt_of_not_le h)
    rw [hnearest, hround, hround']
    refine min_eq_right ?_
    unfold binade infinity
    omega

theorem nearest_below_half : nearest (int64Half - 513) 1 < 1086 * binade := by
  have hnearest : nearest (int64Half - 513) 1
      = min infinity (1084 * binade + roundQuotient (int64Half - 513) 1024) :=
    nearest_of_le (k := 10) (by decide) (by decide)
  have hround : roundQuotient (int64Half - 513) 1024 = 2 * binade - 1 := by decide
  rw [hnearest, hround]
  decide

theorem binade_le_roundQuotient (h : int64Half ≤ n + 512) : binade ≤ roundQuotient n 2048 := by
  have hmono : roundQuotient (int64Half - 512) 2048 ≤ roundQuotient n 2048 :=
    roundQuotient_mono (by omega)
  have hround : roundQuotient (int64Half - 512) 2048 = binade := by decide
  exact hround ▸ hmono

variable {i : Int}

theorem rank_ofInt_of_half_le (hlow : int64Half ≤ i + 512) (hhigh : i < UInt64.size) :
    (ofInt i).rank = (1085 * binade + roundQuotient i.toNat 2048 : Nat) := by
  have hpos : 0 ≤ i := by
    unfold int64Half at hlow
    omega
  lift i to Nat using hpos
  rw [rank_ofInt_natCast, Int.toNat_natCast,
    nearest_of_half_le (Int.ofNat_le.mp hlow) (Int.ofNat_lt.mp hhigh)]

/-- Smaller integers have smaller floats. -/
theorem rank_ofInt_lt_of_lt_half (h : i + 512 < int64Half) {j : Int} (hlow : int64Half ≤ j + 512)
    (hhigh : j < UInt64.size) : (ofInt i).rank < (ofInt j).rank := by
  have hle : (ofInt i).rank ≤ (ofInt (int64Half - 513 : Nat)).rank := by
    refine rank_ofInt_le ?_
    unfold int64Half at h ⊢
    omega
  have hlt := nearest_below_half
  have hbinade : binade ≤ roundQuotient j.toNat 2048 := binade_le_roundQuotient (by omega)
  rw [rank_ofInt_natCast] at hle
  rw [rank_ofInt_of_half_le hlow hhigh]
  omega

end Binary64

/-! ## Integers -/

namespace Json

/-- A value that numbers without point and exponent are kept as. -/
def Whole (i : Int) : Prop := -(int64Half : Int) ≤ i ∧ i < UInt64.size

instance (i : Int) : Decidable (Whole i) := inferInstanceAs (Decidable (_ ∧ _))

/-- Comparing takes the two integers for one: they are not both signed 64-bit integers, and there is one
multiple of 2048 that is nearest to both. Below `2^63` only the last 512 integers are affected. -/
def Blurred (a b : Int) : Prop :=
  a ≠ b ∧ int64Half ≤ max a b ∧ int64Half ≤ min a b + 512 ∧
    Binary64.roundQuotient a.toNat 2048 = Binary64.roundQuotient b.toNat 2048

instance (a b : Int) : Decidable (Blurred a b) := inferInstanceAs (Decidable (_ ∧ _))

/-- The second integer as it looks next to the first one. -/
def seen (a b : Int) : Int := if Blurred a b then a else b

variable {a b : Int}

theorem Blurred.symm (h : Blurred a b) : Blurred b a := by
  obtain ⟨hne, hmax, hmin, hround⟩ := h
  exact ⟨hne.symm, max_comm a b ▸ hmax, min_comm a b ▸ hmin, hround.symm⟩

/-- Signed 64-bit integers are never blurred. -/
theorem not_blurred_of_fitsInt64 (ha : fitsInt64 a = true) (hb : fitsInt64 b = true) :
    ¬ Blurred a b := by
  rintro ⟨-, hmax, -⟩
  simp only [fitsInt64, Bool.and_eq_true, decide_eq_true_eq] at ha hb
  exact absurd (max_lt ha.2 hb.2) (Int.not_lt.mpr hmax)

/-- Blurred integers are close to each other. -/
theorem Blurred.natAbs_sub_le (h : Blurred a b) : (a - b).natAbs ≤ 2048 := by
  obtain ⟨-, -, hmin, hround⟩ := h
  have hden : 0 < 2048 := by decide
  have ha := Binary64.roundQuotient_near a.toNat hden
  have hb := Binary64.roundQuotient_near b.toNat hden
  rw [hround] at ha
  unfold int64Half at hmin
  omega

theorem rank_ofInt_eq_iff_of_lt (ha : Whole a) (hb : Whole b) (hlt : a < b) (hhalf : int64Half ≤ b) :
    (Binary64.ofInt a).rank = (Binary64.ofInt b).rank ↔ Blurred a b := by
  have hrank := Binary64.rank_ofInt_of_half_le (i := b) (by omega) hb.2
  have hmax : max a b = b := max_eq_right hlt.le
  have hmin : min a b = a := min_eq_left hlt.le
  simp only [Blurred, hmax, hmin, hlt.ne, ne_eq, not_false_eq_true, true_and, hhalf]
  by_cases hlow : int64Half ≤ a + 512
  · rw [hrank, Binary64.rank_ofInt_of_half_le hlow ha.2, Int.natCast_inj, Nat.add_left_cancel_iff]
    exact (and_iff_right hlow).symm
  · have hless := Binary64.rank_ofInt_lt_of_lt_half (Int.lt_of_not_ge hlow) (j := b) (by omega) hb.2
    exact iff_of_false hless.ne fun h => hlow h.1

/-- Different integers that are not both signed ones of 64 bits have one nearest float just where they are
blurred. -/
theorem rank_ofInt_eq_iff (ha : Whole a) (hb : Whole b) (hhalf : int64Half ≤ max a b) :
    (a ≠ b ∧ (Binary64.ofInt a).rank = (Binary64.ofInt b).rank) ↔ Blurred a b := by
  rcases lt_trichotomy a b with hlt | heq | hgt
  · rw [max_eq_right hlt.le] at hhalf
    rw [rank_ofInt_eq_iff_of_lt ha hb hlt hhalf]
    exact and_iff_right hlt.ne
  · exact iff_of_false (fun h => h.1 heq) fun h => h.1 heq
  · rw [max_eq_left hgt.le] at hhalf
    rw [eq_comm (a := (Binary64.ofInt a).rank), rank_ofInt_eq_iff_of_lt hb ha hgt hhalf]
    exact ⟨fun h => h.2.symm, fun h => ⟨hgt.ne', h.symm⟩⟩

theorem half_le_max (ha : Whole a) (hb : Whole b) (h : ¬ (fitsInt64 a = true ∧ fitsInt64 b = true)) :
    (int64Half : Int) ≤ max a b := by
  simp only [fitsInt64, Bool.and_eq_true, decide_eq_true_eq, ha.1, hb.1, true_and] at h
  exact le_max_iff.mpr (by omega)

theorem compare_seen (a b : Int) : compare a (seen a b) = if Blurred a b then .eq else compare a b := by
  unfold seen
  split
  · exact compare_eq_iff_eq.mpr rfl
  · rfl

/-- Integers compare as they look, exactly unless they are blurred. -/
theorem order_integer (ha : Whole a) (hb : Whole b) :
    (Number.integer a).order (.integer b) = compare a (seen a b) := by
  rw [compare_seen]
  by_cases hfits : fitsInt64 a = true ∧ fitsInt64 b = true
  · rw [if_neg (not_blurred_of_fitsInt64 hfits.1 hfits.2), Number.order, Number.toInt64?,
      Number.toInt64?, if_pos hfits.1, if_pos hfits.2]
  · have hblurred := rank_ofInt_eq_iff ha hb (half_le_max ha hb hfits)
    have hcoarse : (Number.integer a).order (.integer b)
        = compare (Binary64.ofInt a).rank (Binary64.ofInt b).rank := by
      rcases not_and_or.mp hfits with h | h
      · exact (Number.order_eq_finer _ _).trans (finer_of_left (if_neg h))
      · exact (Number.order_eq_finer _ _).trans (finer_of_right (if_neg h))
    rw [hcoarse]
    split
    · next h => exact compare_eq_iff_eq.mpr (hblurred.mpr h).2
    · next h =>
      by_contra hne
      exact h (hblurred.mp ((compare_ne_compare_rank_iff a b).mp (Ne.symm hne)))

theorem compare?_int (ha : Whole a) (hb : Whole b) :
    (int a).compare? (int b) = some (compare a (seen a b)) :=
  congrArg some (order_integer ha hb)

theorem totalOrder_int (ha : Whole a) (hb : Whole b) :
    totalOrder (some (int a)) (some (int b)) = compare a (seen a b) := order_integer ha hb

/-- Comparing is exact just where the integers are not blurred. -/
theorem compare?_int_eq_iff (ha : Whole a) (hb : Whole b) :
    (int a).compare? (int b) = some (compare a b) ↔ ¬ Blurred a b := by
  rw [compare?_int ha hb, Option.some_inj, compare_seen]
  split
  · next h =>
    refine iff_of_false (fun heq => h.1 ?_) (not_not_intro h)
    exact compare_eq_iff_eq.mp heq.symm
  · next h => exact iff_of_true rfl h

end Json

/-! ## Operators -/

/-- The relation of an integer to the bounds that an operator compares it with. Only `between` has a
second bound. -/
def Operator.relation? : Operator → Option (Int → Int → Int → Prop)
  | .greaterThan | .after => some fun value bound _ => bound < value
  | .greaterThanEqual => some fun value bound _ => bound ≤ value
  | .lessThan | .before => some fun value bound _ => value < bound
  | .lessThanEqual => some fun value bound _ => value ≤ bound
  | .between => some fun value low high => low ≤ value ∧ value ≤ high
  | _ => none

namespace Predicate

open Json (Whole seen Blurred)

variable {a b c : Int}

theorem compares_int (accept : Ordering → Bool) (ha : Whole a) (hb : Whole b) :
    compares accept (.int a) (.int b) = accept (compare a (seen a b)) := by
  rw [compares, Json.compare?_int ha hb]
  rfl

/-- An operator relates integers as they look next to the value. -/
theorem test_int_iff {operator : Operator} {relation : Int → Int → Int → Prop} {second : Json}
    (ignoreCase : Bool) (hrelation : operator.relation? = some relation) (ha : Whole a) (hb : Whole b)
    (hc : Whole c) (hsecond : operator = .between → second = .int c) :
    test operator ignoreCase (.int a) (.int b) second = true ↔ relation a (seen a b) (seen a c) := by
  cases operator <;> cases hrelation
  case between =>
    obtain rfl := hsecond rfl
    simp only [test, compares_int _ ha hb, compares_int _ ha hc, Bool.and_eq_true, bne_iff_ne, ne_eq,
      compare_lt_iff_lt, compare_gt_iff_gt, not_lt]
  all_goals
    simp only [test, compares_int _ ha hb, beq_iff_eq, bne_iff_ne, ne_eq, compare_lt_iff_lt,
      compare_gt_iff_gt, not_lt]

end Predicate

/-- **Integers compare, and are selected and sorted, as they look next to each other: exactly, unless they
are blurred.** Signed 64-bit integers are not blurred, and no integers more than 2048 apart. -/
theorem integers_compare (a b c : Int) (ha : Json.Whole a) (hb : Json.Whole b) (hc : Json.Whole c) :
    (Json.int a).compare? (.int b) = some (compare a (Json.seen a b)) ∧
    ((Json.int a).compare? (.int b) = some (compare a b) ↔ ¬ Json.Blurred a b) ∧
    (fitsInt64 a = true ∧ fitsInt64 b = true ∨ 2048 < (a - b).natAbs → ¬ Json.Blurred a b) ∧
    Json.totalOrder (some (.int a)) (some (.int b)) = compare a (Json.seen a b) ∧
    ∀ (predicate : Predicate) (document : Document) (relation : Int → Int → Int → Prop),
      document.field? predicate.field = some (.int a) → predicate.values[0]? = some (.int b) →
      (predicate.operator = .between → predicate.values[1]? = some (.int c)) →
      predicate.operator.relation? = some relation →
      (predicate.holds document = true ↔ relation a (Json.seen a b) (Json.seen a c)) := by
  refine ⟨Json.compare?_int ha hb, Json.compare?_int_eq_iff ha hb, ?_, Json.totalOrder_int ha hb, ?_⟩
  · rintro (⟨hfits, hfits'⟩ | hfar)
    · exact Json.not_blurred_of_fitsInt64 hfits hfits'
    · exact fun h => Nat.not_lt.mpr h.natAbs_sub_le hfar
  · intro predicate document relation hfield hfirst hsecond hrelation
    rw [Predicate.holds, hfield, hfirst]
    refine Predicate.test_int_iff predicate.ignoreCase hrelation ha hb hc fun hbetween => ?_
    rw [hsecond hbetween]
    rfl

/-- A document with stars. -/
def starred (stars : Int) : Document := .object [("stars", .int stars)]

theorem field?_starred (stars : Int) : (starred stars).field? "stars" = some (.int stars) := by
  have hsegments : Text.segments "stars" = ["stars"] := by decide
  rw [Document.field?, hsegments]
  rfl

/-- Integers that are 4096 apart are told apart. -/
theorem integers_compare_stars :
    let predicate : Predicate :=
      { property := ⟨["stars"], .int⟩, field := "stars", operator := .between, ignoreCase := false,
        values := [.int int64Half, .int (UInt64.size - 1)] }
    Json.Whole (int64Half + 4096) ∧ Json.Whole int64Half ∧ Json.Whole (UInt64.size - 1) ∧
      ¬ Json.Blurred (int64Half + 4096) int64Half ∧
      predicate.holds (starred (int64Half + 4096)) = true := by
  intro predicate
  have hvalue : Json.Whole (int64Half + 4096) := by decide
  have hlow : Json.Whole int64Half := by decide
  have hhigh : Json.Whole (UInt64.size - 1) := by decide
  obtain ⟨-, -, hexact, -, hholds⟩ := integers_compare _ _ _ hvalue hlow hhigh
  refine ⟨hvalue, hlow, hhigh, hexact (.inr (by decide)), ?_⟩
  exact (hholds predicate _ _ (field?_starred _) rfl (fun _ => rfl) rfl).mpr ⟨by decide, by decide⟩

/-- Two integers next to each other: the one is neither greater than the other nor less, and they are not
equal. -/
theorem integers_blurred_stars :
    let document := starred (int64Half + 1)
    let predicate (operator : Operator) : Predicate :=
      { property := ⟨["stars"], .int⟩, field := "stars", operator, ignoreCase := false,
        values := [.int int64Half] }
    (int64Half : Int) < int64Half + 1 ∧ Json.Blurred (int64Half + 1) int64Half ∧
      (predicate .greaterThan).holds document = false ∧ (predicate .lessThan).holds document = false ∧
      (predicate .equal).holds document = false := by
  intro document predicate
  have hfield : ∀ operator, document.field? (predicate operator).field
      = some (.int (int64Half + 1)) := fun _ => field?_starred _
  refine ⟨by decide, by decide, ?_, ?_, ?_⟩
  all_goals
    rw [Predicate.holds, hfield]
    decide +kernel

end DerivedQuery
