import DerivedQuery.Json.Basic

/-!
# Equality of values is an equivalence

`Json.same` is coarser than `=`: the two zeros of the floats are the same. It is still reflexive,
symmetric and transitive. Each law goes by mutual induction over values, elements and members.
-/

namespace DerivedQuery.Json

namespace Number

/-- What equality sees of a number: its kind and its place among the numbers of that kind. -/
def place : Number → Int ⊕ Int
  | integer a => .inl a
  | float x => .inr x.rank

theorem same_iff {m n : Number} : m.same n ↔ m.place = n.place := by
  cases m <;> cases n <;> simp [same, place]

end Number

mutual

@[simp]
theorem same_refl : ∀ a : Json, a.same a
  | null => rfl
  | bool _ => by simp only [same, BEq.rfl]
  | number _ => Number.same_iff.mpr rfl
  | string _ => by simp only [same, BEq.rfl]
  | array xs => sameElements_refl xs
  | object xs => sameMembers_refl xs

theorem sameElements_refl : ∀ xs : List Json, sameElements xs xs
  | [] => rfl
  | x :: xs => by simp only [sameElements, same_refl x, sameElements_refl xs, Bool.and_self]

theorem sameMembers_refl : ∀ xs : List (String × Json), sameMembers xs xs
  | [] => rfl
  | (_, x) :: xs => by
    simp only [sameMembers, BEq.rfl, same_refl x, sameMembers_refl xs, Bool.and_self]

end

mutual

theorem same_symm : ∀ {a b : Json}, a.same b → b.same a
  | null, b, h => by cases b <;> exact h
  | bool p, b, h => by
    cases b with
    | bool q => exact beq_iff_eq.mpr (beq_iff_eq.mp h).symm
    | _ => cases h
  | number m, b, h => by
    cases b with
    | number n => exact Number.same_iff.mpr (Number.same_iff.mp h).symm
    | _ => cases h
  | string s, b, h => by
    cases b with
    | string t => exact beq_iff_eq.mpr (beq_iff_eq.mp h).symm
    | _ => cases h
  | array xs, b, h => by
    cases b with
    | array ys => exact sameElements_symm h
    | _ => cases h
  | object xs, b, h => by
    cases b with
    | object ys => exact sameMembers_symm h
    | _ => cases h

theorem sameElements_symm : ∀ {xs ys : List Json}, sameElements xs ys → sameElements ys xs
  | [], [], h => h
  | x :: xs, y :: ys, h => by
    rw [sameElements, Bool.and_eq_true] at h ⊢
    exact ⟨same_symm h.1, sameElements_symm h.2⟩

theorem sameMembers_symm : ∀ {xs ys : List (String × Json)}, sameMembers xs ys → sameMembers ys xs
  | [], [], h => h
  | (k, x) :: xs, (l, y) :: ys, h => by
    rw [sameMembers, Bool.and_eq_true, Bool.and_eq_true, beq_iff_eq] at h ⊢
    exact ⟨⟨h.1.1.symm, same_symm h.1.2⟩, sameMembers_symm h.2⟩

end

mutual

theorem same_trans : ∀ {a b c : Json}, a.same b → b.same c → a.same c
  | null, b, c, h, h' => by
    cases b with
    | null => exact h'
    | _ => cases h
  | bool p, b, c, h, h' => by
    cases b with
    | bool q =>
      rw [same, beq_iff_eq] at h
      exact h ▸ h'
    | _ => cases h
  | number m, b, c, h, h' => by
    cases b with
    | number n =>
      cases c with
      | number o => exact Number.same_iff.mpr ((Number.same_iff.mp h).trans (Number.same_iff.mp h'))
      | _ => cases h'
    | _ => cases h
  | string s, b, c, h, h' => by
    cases b with
    | string t =>
      rw [same, beq_iff_eq] at h
      exact h ▸ h'
    | _ => cases h
  | array xs, b, c, h, h' => by
    cases b with
    | array ys =>
      cases c with
      | array zs => exact sameElements_trans h h'
      | _ => cases h'
    | _ => cases h
  | object xs, b, c, h, h' => by
    cases b with
    | object ys =>
      cases c with
      | object zs => exact sameMembers_trans h h'
      | _ => cases h'
    | _ => cases h

theorem sameElements_trans : ∀ {xs ys zs : List Json},
    sameElements xs ys → sameElements ys zs → sameElements xs zs
  | [], [], zs, _, h' => h'
  | x :: xs, y :: ys, z :: zs, h, h' => by
    rw [sameElements, Bool.and_eq_true] at h h' ⊢
    exact ⟨same_trans h.1 h'.1, sameElements_trans h.2 h'.2⟩

theorem sameMembers_trans : ∀ {xs ys zs : List (String × Json)},
    sameMembers xs ys → sameMembers ys zs → sameMembers xs zs
  | [], [], zs, _, h' => h'
  | (k, x) :: xs, (l, y) :: ys, (i, z) :: zs, h, h' => by
    rw [sameMembers, Bool.and_eq_true, Bool.and_eq_true, beq_iff_eq] at h h' ⊢
    exact ⟨⟨h.1.1.trans h'.1.1, same_trans h.1.2 h'.1.2⟩, sameMembers_trans h.2 h'.2⟩

end

/-- Only the same text is the same as a text. -/
theorem same_string_iff {value : Json} {text : String} :
    value.same (.string text) ↔ value = .string text := by
  cases value <;> simp [same]

/-- Only `null` is the same as `null`. -/
theorem isNull_eq_of_same {a b : Json} (h : a.same b) : a.isNull = b.isNull := by
  cases a <;> cases b <;> first | rfl | cases h

end DerivedQuery.Json
