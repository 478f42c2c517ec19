import Mathlib.Order.Compare
import DerivedQuery.Predicate.Order
import DerivedQuery.Proofs.Number.Rounding

/-!
# Order of values for sorting

`Json.totalOrder` is reversed from the other side, and reflexive. It is not transitive: numbers and
strings are each compared in two ways, exactly where both values are signed 64-bit integers or both are
instants, and coarsely, as floats or as texts, otherwise. Two values that compare exactly may compare the
other way round, or differently from equal, with a third value between them that only compares coarsely
(`totalOrder_instants`).

That is all there is to it. Comparing in two ways is transitive just where no three values `Clash` in that
way (`isLE_finer_trans`, `not_clash_of_transitiveOn`), and so is the order of all values
(`transitiveOn_totalOrder_iff`). Numbers only clash if two integers have one nearest float
(`clash_number_iff`).
-/

namespace DerivedQuery

/-! ## Transitive comparisons -/

section Transitive

variable {α β : Type} {cmp : α → α → Ordering} {values others : List α} {a b c : α}

/-- Comparing is transitive on the values. -/
def TransitiveOn (cmp : α → α → Ordering) (values : List α) : Prop :=
  ∀ a ∈ values, ∀ b ∈ values, ∀ c ∈ values, (cmp a b).isLE → (cmp b c).isLE → (cmp a c).isLE

theorem TransitiveOn.mono (h : TransitiveOn cmp values) (hsub : ∀ value ∈ others, value ∈ values) :
    TransitiveOn cmp others :=
  fun a ha b hb c hc => h a (hsub a ha) b (hsub b hb) c (hsub c hc)

theorem transitiveOn_of_transCmp [Std.TransCmp cmp] : TransitiveOn cmp values :=
  fun _ _ _ _ _ _ => Std.TransCmp.isLE_trans

theorem transitiveOn_map_iff (f : β → α) (list : List β) :
    TransitiveOn cmp (list.map f) ↔ TransitiveOn (fun a b => cmp (f a) (f b)) list := by
  simp only [TransitiveOn, List.forall_mem_map]

/-- Two values compare as they do by way of a third one, unless that is on the same side of both. -/
theorem TransitiveOn.eq_then [Std.OrientedCmp cmp] (h : TransitiveOn cmp [a, b, c])
    (hbetween : cmp a c = cmp b c → cmp a c = .eq) : cmp a b = (cmp a c).then (cmp c b) := by
  have hac := h a (by simp) c (by simp) b (by simp)
  have hbc := h b (by simp) c (by simp) a (by simp)
  have hab := h a (by simp) b (by simp) c (by simp)
  have hba := h b (by simp) a (by simp) c (by simp)
  have hcab := h c (by simp) a (by simp) b (by simp)
  have hcba := h c (by simp) b (by simp) a (by simp)
  have hswap : ∀ x y, cmp x y = (cmp y x).swap := fun _ _ => Std.OrientedCmp.eq_swap
  rw [hswap c b] at hac hcab hcba ⊢
  rw [hswap c a] at hbc hcab hcba
  rw [hswap b a] at hba hbc hcba
  -- Among the outcomes of the three comparisons no other is left.
  generalize cmp a b = ab at *
  generalize cmp a c = ac at *
  generalize cmp b c = bc at *
  revert ab ac bc
  decide

end Transitive

/-! ## Two orders -/

section TwoOrders

variable {α β : Type} (place? : α → Option β) (fine : β → β → Ordering) (coarse : α → α → Ordering)

/-- The fine order where both have a place in it, and the coarse one otherwise. -/
def finer (a b : α) : Ordering :=
  match place? a, place? b with
  | some x, some y => fine x y
  | _, _ => coarse a b

/-- Two elements compare in the fine order, and not as they do in the coarse one. The third one has no
place in the fine order, and in the coarse one it is not on the same side of both. -/
def Clash (a b c : α) : Prop :=
  ∃ x y, place? a = some x ∧ place? b = some y ∧ place? c = none ∧ fine x y ≠ coarse a b ∧
    (coarse a c = coarse b c → coarse a c = .eq)

variable {place? fine coarse} {a b c : α}

theorem finer_of_left (ha : place? a = none) : finer place? fine coarse a b = coarse a b := by
  rw [finer, ha]

theorem finer_of_right (hb : place? b = none) : finer place? fine coarse a b = coarse a b := by
  rw [finer, hb]
  cases place? a <;> rfl

instance [Std.OrientedCmp fine] [Std.OrientedCmp coarse] :
    Std.OrientedCmp (finer place? fine coarse) where
  eq_swap {a b} := by
    unfold finer
    cases place? a with
    | none => cases place? b <;> exact Std.OrientedCmp.eq_swap
    | some x => cases place? b <;> exact Std.OrientedCmp.eq_swap

/-- A third one without a place in the fine order does not clash: it is on the same side of both, or both
compare as they do coarsely. -/
theorem finer_of_not_clash (h : ¬ Clash place? fine coarse a b c) (hc : place? c = none) :
    finer place? fine coarse a b = coarse a b ∨ (coarse a c = coarse b c ∧ coarse a c ≠ .eq) := by
  cases ha : place? a with
  | none => exact .inl (finer_of_left ha)
  | some x =>
    cases hb : place? b with
    | none => exact .inl (finer_of_right hb)
    | some y =>
      rw [finer, ha, hb]
      by_cases hsame : fine x y = coarse a b
      · exact .inl hsame
      · exact .inr (Classical.not_imp.mp fun hbetween => h ⟨x, y, ha, hb, hc, hsame, hbetween⟩)

/-- **Two orders together are transitive where they do not clash.** -/
theorem isLE_finer_trans [Std.TransCmp fine] [Std.TransCmp coarse]
    (habc : ¬ Clash place? fine coarse a b c) (hacb : ¬ Clash place? fine coarse a c b)
    (hbca : ¬ Clash place? fine coarse b c a) (hab : (finer place? fine coarse a b).isLE)
    (hbc : (finer place? fine coarse b c).isLE) : (finer place? fine coarse a c).isLE := by
  -- Unless all three compare in the fine order, the one without a place in it decides.
  cases ha : place? a with
  | none =>
    rw [finer_of_left ha] at hab ⊢
    rcases finer_of_not_clash hbca ha with hcoarse | ⟨hside, -⟩
    · exact Std.TransCmp.isLE_trans hab (hcoarse ▸ hbc)
    · have hsame : coarse a b = coarse a c := calc
        coarse a b = (coarse b a).swap := Std.OrientedCmp.eq_swap
        _ = (coarse c a).swap := congrArg Ordering.swap hside
        _ = coarse a c := Std.OrientedCmp.eq_swap.symm
      exact hsame ▸ hab
  | some x =>
    cases hb : place? b with
    | none =>
      rw [finer_of_right hb] at hab
      rw [finer_of_left hb] at hbc
      rcases finer_of_not_clash hacb hb with hcoarse | ⟨hside, hne⟩
      · exact hcoarse ▸ Std.TransCmp.isLE_trans hab hbc
      · -- One of them would be below the one between them, and the other not.
        exact absurd (hside.trans (Std.OrientedCmp.isLE_antisymm (hside ▸ hab) hbc)) hne
    | some y =>
      cases hc : place? c with
      | none =>
        rw [finer_of_right hc] at hbc ⊢
        rcases finer_of_not_clash habc hc with hcoarse | ⟨hside, -⟩
        · exact Std.TransCmp.isLE_trans (hcoarse ▸ hab) hbc
        · exact hside ▸ hbc
      | some z =>
        simp only [finer, ha, hb, hc] at hab hbc ⊢
        exact Std.TransCmp.isLE_trans hab hbc

/-- **Where they clash they are not.** The third one would decide how the other two compare, in either
order. -/
theorem not_clash_of_transitiveOn [Std.OrientedCmp fine] [Std.TransCmp coarse]
    (h : TransitiveOn (finer place? fine coarse) [a, b, c]) : ¬ Clash place? fine coarse a b c := by
  rintro ⟨x, y, ha, hb, hc, hne, hbetween⟩
  have hac : finer place? fine coarse a c = coarse a c := finer_of_right hc
  have hbc : finer place? fine coarse b c = coarse b c := finer_of_right hc
  have hcb : finer place? fine coarse c b = coarse c b := finer_of_left hc
  have hfiner := h.eq_then (by rwa [hac, hbc])
  have hcoarse : TransitiveOn coarse [a, b, c] := transitiveOn_of_transCmp
  rw [hac, hcb, ← hcoarse.eq_then hbetween] at hfiner
  simp only [finer, ha, hb] at hfiner
  exact hne hfiner

end TwoOrders

/-! ## Strings and numbers -/

instance : Std.TransCmp Instant.order :=
  inferInstanceAs (Std.TransCmp (compareLex (compareOn Instant.seconds) (compareOn Instant.nanoseconds)))

instance : Std.TransCmp Binary64.order := inferInstanceAs (Std.TransCmp (compareOn Binary64.rank))

/-- The instant that a string stands for. -/
def instant? (s : String) : Option Instant := Instant.ofChars? s.toList

theorem compareTexts_eq_finer (s t : String) :
    compareTexts s t = finer instant? Instant.order compare s t := by
  unfold compareTexts finer instant?
  cases Instant.ofChars? s.toList <;> cases Instant.ofChars? t.toList <;> rfl

namespace Json

namespace Number

/-- Order of the nearest floats. -/
def coarse : Number → Number → Ordering := fun m n => m.toFloat.order n.toFloat

instance : Std.TransCmp coarse :=
  inferInstanceAs (Std.TransCmp (compareOn fun m : Number => m.toFloat.rank))

theorem order_eq_finer (m n : Number) : m.order n = finer toInt64? compare coarse m n := by
  unfold order finer
  cases m.toInt64? <;> cases n.toInt64? <;> rfl

end Number

/-- Two numbers, or two strings, compare exactly and not as they do coarsely, while a third one only
compares coarsely with them and is not on the same side of both. -/
def Clash : Option Json → Option Json → Option Json → Prop
  | some (number m), some (number n), some (number k) =>
    DerivedQuery.Clash Number.toInt64? compare Number.coarse m n k
  | some (string s), some (string t), some (string u) =>
    DerivedQuery.Clash instant? Instant.order compare s t u
  | _, _, _ => False

/-- No three of the values clash. -/
def Harmonious (values : List (Option Json)) : Prop :=
  ∀ a ∈ values, ∀ b ∈ values, ∀ c ∈ values, ¬ Clash a b c

/-! ## Harmony -/

theorem Number.toInt64?_eq_some_iff {n : Number} {i : Int} :
    n.toInt64? = some i ↔ n = .integer i ∧ fitsInt64 i = true := by
  cases n with
  | float x => exact ⟨nofun, nofun⟩
  | integer a =>
    rw [Number.toInt64?, Option.ite_none_right_eq_some]
    constructor
    · rintro ⟨hfits, ⟨⟩⟩
      exact ⟨rfl, hfits⟩
    · rintro ⟨⟨⟩, hfits⟩
      exact ⟨hfits, rfl⟩

/-- Rounding keeps the order of integers, so it can only make different ones equal. -/
theorem compare_ne_compare_rank_iff (i j : Int) :
    compare i j ≠ compare (Binary64.ofInt i).rank (Binary64.ofInt j).rank ↔
      i ≠ j ∧ (Binary64.ofInt i).rank = (Binary64.ofInt j).rank := by
  rcases Int.lt_trichotomy i j with hlt | rfl | hgt
  · rw [compare_lt_iff_lt.mpr hlt]
    rcases (Binary64.rank_ofInt_le hlt.le).lt_or_eq with hrank | hrank
    · rw [compare_lt_iff_lt.mpr hrank]
      exact iff_of_false (not_not_intro rfl) fun h => hrank.ne h.2
    · rw [compare_eq_iff_eq.mpr hrank]
      exact iff_of_true nofun ⟨hlt.ne, hrank⟩
  · rw [compare_eq_iff_eq.mpr rfl, compare_eq_iff_eq.mpr rfl]
    exact iff_of_false (not_not_intro rfl) fun h => h.1 rfl
  · rw [compare_gt_iff_gt.mpr hgt]
    rcases (Binary64.rank_ofInt_le hgt.le).lt_or_eq with hrank | hrank
    · rw [compare_gt_iff_gt.mpr hrank]
      exact iff_of_false (not_not_intro rfl) fun h => hrank.ne h.2.symm
    · rw [compare_eq_iff_eq.mpr hrank.symm]
      exact iff_of_true nofun ⟨hgt.ne', hrank.symm⟩

/-- Numbers only clash if two integers have one nearest float, and a third number has it too. -/
theorem clash_number_iff {m n k : Number} :
    Clash (some (number m)) (some (number n)) (some (number k)) ↔
      ∃ i j : Int, m.toInt64? = some i ∧ n.toInt64? = some j ∧ k.toInt64? = none ∧ i ≠ j ∧
        (Binary64.ofInt i).rank = k.toFloat.rank ∧ (Binary64.ofInt j).rank = k.toFloat.rank := by
  refine exists_congr fun i => exists_congr fun j => and_congr_right fun hm => and_congr_right fun hn =>
    and_congr_right fun _ => ?_
  obtain ⟨rfl, -⟩ := Number.toInt64?_eq_some_iff.mp hm
  obtain ⟨rfl, -⟩ := Number.toInt64?_eq_some_iff.mp hn
  constructor
  · rintro ⟨hcompare, hbetween⟩
    obtain ⟨hne, hrank⟩ := (compare_ne_compare_rank_iff i j).mp hcompare
    have hsame : (Number.integer i).coarse k = (Number.integer j).coarse k :=
      congrArg (compare · k.toFloat.rank) hrank
    have hi : (Binary64.ofInt i).rank = k.toFloat.rank := compare_eq_iff_eq.mp (hbetween hsame)
    exact ⟨hne, hi, hrank ▸ hi⟩
  · rintro ⟨hne, hi, hj⟩
    exact ⟨(compare_ne_compare_rank_iff i j).mpr ⟨hne, hi.trans hj.symm⟩,
      fun _ => compare_eq_iff_eq.mpr hi⟩

/-- Values are harmonious if the strings are all instants or all not, and the numbers are all signed
64-bit integers or have integers of at most 53 bits among them. -/
theorem harmonious_of_uniform {values : List (Option Json)}
    (hstrings : (∀ s, some (string s) ∈ values → instant? s ≠ none) ∨
      ∀ s, some (string s) ∈ values → instant? s = none)
    (hnumbers : (∀ n, some (number n) ∈ values → n.toInt64? ≠ none) ∨
      ∀ i, some (number (.integer i)) ∈ values → i.natAbs < 2 ^ 53) : Harmonious values := by
  intro a ha b hb c hc hclash
  match a, b, c with
  | some (string s), some (string t), some (string u) =>
    obtain ⟨x, y, hs, -, hu, -⟩ := hclash
    rcases hstrings with hall | hnone
    · exact hall u hc hu
    · rw [hnone s ha] at hs
      cases hs
  | some (number m), some (number n), some (number k) =>
    obtain ⟨i, j, hm, hn, hk, hne, hi, hj⟩ := clash_number_iff.mp hclash
    have hrank := hi.trans hj.symm
    rcases hnumbers with hall | hsmall
    · exact hall k hc hk
    · obtain ⟨rfl, -⟩ := Number.toInt64?_eq_some_iff.mp hm
      obtain ⟨rfl, -⟩ := Number.toInt64?_eq_some_iff.mp hn
      rcases Int.lt_or_gt_of_ne hne with hlt | hgt
      · exact (Binary64.rank_ofInt_lt hlt (hsmall i ha) (hsmall j hb)).ne hrank
      · exact (Binary64.rank_ofInt_lt hgt (hsmall j hb) (hsmall i ha)).ne' hrank

/-! ## Values -/

/-- Order of two values of one kind, which are equal if they do not compare. -/
def withinKind (a b : Json) : Ordering := (a.compare? b).getD .eq

theorem withinKind_swap (a b : Json) : b.withinKind a = (a.withinKind b).swap := by
  unfold withinKind
  cases a with
  | null | array _ | object _ => cases b <;> rfl
  | bool x =>
    cases b with
    | bool y =>
      simp only [compare?, Option.getD_some]
      exact Std.OrientedCmp.eq_swap
    | null | number _ | string _ | array _ | object _ => rfl
  | number m =>
    cases b with
    | number n =>
      simp only [compare?, Option.getD_some, Number.order_eq_finer]
      exact Std.OrientedCmp.eq_swap
    | null | bool _ | string _ | array _ | object _ => rfl
  | string s =>
    cases b with
    | string t =>
      simp only [compare?, Option.getD_some, compareTexts_eq_finer]
      exact Std.OrientedCmp.eq_swap
    | null | bool _ | number _ | array _ | object _ => rfl

theorem isLE_withinKind_trans {a b c : Json} (hab : a.kindRank = b.kindRank)
    (hbc : b.kindRank = c.kindRank) (habc : ¬ Clash (some a) (some b) (some c))
    (hacb : ¬ Clash (some a) (some c) (some b)) (hbca : ¬ Clash (some b) (some c) (some a))
    (h : (a.withinKind b).isLE) (h' : (b.withinKind c).isLE) : (a.withinKind c).isLE := by
  unfold withinKind at h h' ⊢
  cases a with
  | null | array _ | object _ => cases c <;> rfl
  | bool x =>
    cases b <;> cases hab
    cases c <;> cases hbc
    simp only [compare?, Option.getD_some] at h h' ⊢
    exact Std.TransCmp.isLE_trans h h'
  | number m =>
    cases b <;> cases hab
    cases c <;> cases hbc
    simp only [compare?, Option.getD_some, Number.order_eq_finer] at h h' ⊢
    exact isLE_finer_trans habc hacb hbca h h'
  | string s =>
    cases b <;> cases hab
    cases c <;> cases hbc
    simp only [compare?, Option.getD_some, compareTexts_eq_finer] at h h' ⊢
    exact isLE_finer_trans habc hacb hbca h h'

/-! ## All values -/

theorem totalOrder_some (a b : Json) : totalOrder (some a) (some b)
    = (compare a.kindRank b.kindRank).then (a.withinKind b) := rfl

/-- The order seen from the other side. -/
theorem totalOrder_swap (a b : Option Json) : totalOrder b a = (totalOrder a b).swap := by
  cases a with
  | none => cases b <;> rfl
  | some a =>
    cases b with
    | none => rfl
    | some b =>
      rw [totalOrder_some, totalOrder_some, Ordering.swap_then, ← withinKind_swap,
        ← Std.OrientedCmp.eq_swap]

/-- A value is equal to itself. -/
theorem totalOrder_self (a : Option Json) : totalOrder a a = .eq := by
  have hswap := totalOrder_swap a a
  cases h : totalOrder a a with
  | eq => rfl
  | lt => rw [h] at hswap; cases hswap
  | gt => rw [h] at hswap; cases hswap

theorem isLE_totalOrder_iff (a b : Json) : (totalOrder (some a) (some b)).isLE ↔
    a.kindRank < b.kindRank ∨ (a.kindRank = b.kindRank ∧ (a.withinKind b).isLE) := by
  rw [totalOrder_some]
  rcases Nat.lt_trichotomy a.kindRank b.kindRank with h | h | h
  · simp [Nat.compare_eq_lt.mpr h, h]
  · simp [h]
  · simp [Nat.compare_eq_gt.mpr h, Nat.lt_asymm h, Nat.ne_of_gt h]

theorem isLE_totalOrder_trans {a b c : Option Json} (habc : ¬ Clash a b c) (hacb : ¬ Clash a c b)
    (hbca : ¬ Clash b c a) (hab : (totalOrder a b).isLE) (hbc : (totalOrder b c).isLE) :
    (totalOrder a c).isLE := by
  cases a with
  | none => cases c <;> rfl
  | some a =>
    cases b with
    | none => cases hab
    | some b =>
      cases c with
      | none => cases hbc
      | some c =>
        rw [isLE_totalOrder_iff] at hab hbc ⊢
        rcases hab with hab | ⟨hab, hwithin⟩
        · refine .inl (Nat.lt_of_lt_of_le hab ?_)
          rcases hbc with hbc | ⟨hbc, -⟩
          · exact Nat.le_of_lt hbc
          · exact Nat.le_of_eq hbc
        · rcases hbc with hbc | ⟨hbc, hwithin'⟩
          · exact .inl (hab ▸ hbc)
          · exact .inr
              ⟨hab.trans hbc, isLE_withinKind_trans hab hbc habc hacb hbca hwithin hwithin'⟩

theorem totalOrder_number (m n : Number) : totalOrder (some (number m)) (some (number n))
    = finer Number.toInt64? compare Number.coarse m n := Number.order_eq_finer m n

theorem totalOrder_string (s t : String) : totalOrder (some (string s)) (some (string t))
    = finer instant? Instant.order compare s t := compareTexts_eq_finer s t

/-- **The order is transitive just on harmonious values.** -/
theorem transitiveOn_totalOrder_iff {values : List (Option Json)} :
    TransitiveOn totalOrder values ↔ Harmonious values := by
  constructor
  · intro h a ha b hb c hc hclash
    have hthree : TransitiveOn totalOrder [a, b, c] := h.mono (by simp [ha, hb, hc])
    match a, b, c with
    | some (number m), some (number n), some (number k) =>
      have hnumbers := (transitiveOn_map_iff (fun n => some (number n)) [m, n, k]).mp hthree
      simp only [totalOrder_number] at hnumbers
      exact not_clash_of_transitiveOn hnumbers hclash
    | some (string s), some (string t), some (string u) =>
      have hstrings := (transitiveOn_map_iff (fun s => some (string s)) [s, t, u]).mp hthree
      simp only [totalOrder_string] at hstrings
      exact not_clash_of_transitiveOn hstrings hclash
  · intro h a ha b hb c hc
    exact isLE_totalOrder_trans (h a ha b hb c hc) (h a ha c hc b hb) (h b hb c hc a ha)

/-- Two texts of one instant and a text between them that is not an instant. -/
theorem totalOrder_instants :
    let earlier := string "2024-01-01T12:00:00+00:00"
    let between := string "2024-01-01T12:30"
    let later := string "2024-01-01T13:00:00+01:00"
    totalOrder (some later) (some earlier) = .eq ∧ totalOrder (some earlier) (some between) = .lt ∧
      totalOrder (some later) (some between) = .gt := by
  refine ⟨?_, ?_, ?_⟩
  all_goals decide +kernel

end Json

end DerivedQuery
