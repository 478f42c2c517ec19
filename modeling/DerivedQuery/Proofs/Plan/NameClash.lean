import DerivedQuery.Proofs.Plan.Parameters
import Mathlib.Data.List.Nodup

/-!
# Parameters that share a name

Nothing stands between the leaf of the property and the place in the name of a parameter. Two parameters
have one name if the leaf of the first one goes on where that of the second one ends, with the digits that
the place of the second one begins with (`Sql.Clash`). That takes a leaf that ends in a digit and more
than ten parameters, as with `a1` at the first place and `a` at the eleventh
(`Sql.parameterName_eq_iff`). The text mentions each parameter once, so it then mentions one name for two
values.
-/

namespace DerivedQuery

namespace Sql

/-- The leaf of a property as it stands in the names of parameters. -/
def leafName (property : PropertyPath) : List Char := property.leaf.toList.filter isNameChar

/-- The leaf at the first place is the one at the second place followed by the digits that the second
place has in front of those of the first one. -/
def Clash (first : PropertyPath) (i : Nat) (second : PropertyPath) (j : Nat) : Prop :=
  ∃ digits, Nat.toDigits 10 j = digits ++ Nat.toDigits 10 i ∧ leafName first = leafName second ++ digits

theorem toDigits_injective : Function.Injective (Nat.toDigits 10) := by
  intro i j h
  rw [← Nat.ofDigitChars_ten_toDigits (n := i), h, Nat.ofDigitChars_ten_toDigits]

theorem length_toDigits_le {i j : Nat} (h : i ≤ j) :
    (Nat.toDigits 10 i).length ≤ (Nat.toDigits 10 j).length := by
  rw [Nat.length_toDigits_le_iff (by decide) Nat.length_toDigits_pos]
  exact h.trans_lt ((Nat.length_toDigits_le_iff (by decide) Nat.length_toDigits_pos).mp le_rfl)

/-- Names at different places are equal exactly if they clash. -/
theorem parameterName_eq_iff {first second : PropertyPath} {i j : Nat} (hij : i < j) :
    parameterName first i = parameterName second j ↔ Clash first i second j := by
  rw [← String.toList_inj, toList_parameterName, toList_parameterName, List.cons.injEq,
    and_iff_right rfl, List.append_eq_append_iff]
  constructor
  · rintro (⟨between, -, hdigits⟩ | ⟨digits, hleaf, hdigits⟩)
    · -- The digits of the earlier place are not more than those of the later one.
      have hlength := length_toDigits_le hij.le
      rw [hdigits, List.length_append] at hlength
      have hnil : between = [] := List.length_eq_zero_iff.mp (by omega)
      rw [hnil, List.nil_append] at hdigits
      exact absurd (toDigits_injective hdigits) hij.ne
    · exact ⟨digits, hdigits, hleaf⟩
  · rintro ⟨digits, hdigits, hleaf⟩
    exact .inr ⟨digits, hleaf, hdigits⟩

/-- Clashing places lie apart: the second one has more digits than the first one. -/
theorem Clash.digits {first second : PropertyPath} {i j : Nat} (hij : i < j)
    (h : Clash first i second j) : 10 ≤ j ∧ ∃ c ∈ (leafName first).getLast?, c.isDigit := by
  obtain ⟨digits, hdigits, hleaf⟩ := h
  have hne : digits ≠ [] := by
    rintro rfl
    exact hij.ne (toDigits_injective hdigits.symm)
  constructor
  · by_contra hj
    have hone : (Nat.toDigits 10 j).length = 1 := by
      rw [Nat.toDigits_of_lt_base (by omega)]
      rfl
    have hpos : 0 < digits.length := List.length_pos_iff.mpr hne
    have hpos' : 0 < (Nat.toDigits 10 i).length := Nat.length_toDigits_pos
    rw [hdigits, List.length_append] at hone
    omega
  · refine ⟨digits.getLast hne, ?_, ?_⟩
    · rw [hleaf, List.getLast?_append_of_ne_nil _ hne, List.getLast?_eq_some_getLast hne]
      rfl
    · have hmem : digits.getLast hne ∈ Nat.toDigits 10 j := by
        rw [hdigits]
        exact List.mem_append_left _ (List.getLast_mem hne)
      exact Nat.isDigit_of_mem_toDigits (by decide) (by decide) hmem

/-- **Names of parameters are distinct exactly if none of them clash.** -/
theorem nodup_names_iff (query : Query) :
    ((render query).parameters.map (·.name)).Nodup ↔
      ∀ i j first second, i < j → query.tree.takers[i]? = some first →
        query.tree.takers[j]? = some second → ¬ Clash first.property i second.property j := by
  rw [names_render, List.nodup_iff_getElem?_ne_getElem?]
  simp only [List.getElem?_mapIdx, List.length_mapIdx]
  constructor
  · intro h i j first second hij hfirst hsecond hclash
    obtain ⟨hj, -⟩ := List.getElem?_eq_some_iff.mp hsecond
    refine h i j hij hj ?_
    rw [hfirst, hsecond, Option.map_some, Option.map_some, (parameterName_eq_iff hij).mpr hclash]
  · intro h i j hij hj heq
    rw [List.getElem?_eq_getElem (hij.trans hj), List.getElem?_eq_getElem hj, Option.map_some,
      Option.map_some, Option.some.injEq, parameterName_eq_iff hij] at heq
    exact h i j _ _ hij (List.getElem?_eq_getElem _) (List.getElem?_eq_getElem _) heq

/-- **A text mentions its parameters, and their names are distinct unless two of them clash.** They never
clash among the first ten parameters, nor if no leaf ends in a digit. -/
theorem mentions_and_nodup_names_iff (query : Query) :
    let names := (render query).parameters.map (·.name)
    mentions (render query).text = names ∧
    (names.Nodup ↔ ∀ i j first second, i < j → query.tree.takers[i]? = some first →
      query.tree.takers[j]? = some second → ¬ Clash first.property i second.property j) ∧
    ((render query).parameters.length ≤ 10 → names.Nodup) ∧
    ((∀ taker ∈ query.tree.takers, ∀ c ∈ (leafName taker.property).getLast?, c.isDigit = false) →
      names.Nodup) := by
  intro names
  refine ⟨mentions_render query, nodup_names_iff query, ?_, ?_⟩
  · intro hlength
    rw [nodup_names_iff]
    intro i j first second hij _ hsecond hclash
    obtain ⟨hj, -⟩ := List.getElem?_eq_some_iff.mp hsecond
    have hnames := congrArg List.length (names_render query)
    rw [List.length_map, List.length_mapIdx] at hnames
    have hten := (hclash.digits hij).1
    omega
  · intro hleaves
    rw [nodup_names_iff]
    intro i j first second hij hfirst _ hclash
    obtain ⟨c, hc, hdigit⟩ := (hclash.digits hij).2
    rw [hleaves first (List.mem_of_getElem? hfirst) c hc] at hdigit
    cases hdigit

end Sql

/-- Cells of a sheet, with two of their columns. -/
def Sheet.metadata : EntityMetadata where
  typeName := "Cell"
  collection := "cells"
  idProperty := ⟨["id"], .string⟩
  partitionKey := none
  properties := PropertyTable.build [("a", .string), ("a1", .string), ("id", .string)]

/-- The first and the eleventh parameter of a call share a name, for two values. -/
theorem Engine.one_name_for_two_values :
    let e := inMemory Sheet.metadata {}
    let method := "findByA1AndAAndAAndAAndAAndAAndAAndAAndAAndAAndA"
    let call : Call := { arguments := .string "first" :: List.replicate 9 .null ++ [.string "last"] }
    ∃ query later, (e.assemble method call).runOn { store := {} } = (.ok query, later) ∧
      (Sql.render query).parameters[0]?.map (fun parameter => (parameter.name, parameter.value.strings))
        = some ("@a10", ["first"]) ∧
      (Sql.render query).parameters[10]?.map (fun parameter => (parameter.name, parameter.value.strings))
        = some ("@a10", ["last"]) := by
  intro e method call
  have hparse : Method.parse Sheet.metadata "findByA1AndAAndAAndAAndAAndAAndAAndAAndAAndAAndA"
      = .ok ⟨method, .find, {}, .and,
        ⟨⟨["a1"], .string⟩, .equal, false⟩ :: List.replicate 10 ⟨⟨["a"], .string⟩, .equal, false⟩,
        []⟩ := by
    with_unfolding_all rfl
  obtain ⟨later, hrun, -⟩ := e.runOn_assemble method call { store := {} }
  rw [(e.faithful_new {}).planned_eq hparse] at hrun
  exact ⟨_, later, hrun, by decide, by decide⟩

end DerivedQuery
