import Mathlib.Data.List.Basic
import DerivedQuery.Store.Memory

/-!
# Results cut into pages

`Paginates pages size items` says that pages hand out some items one after the other: all but the
last are full and have a token, the last has none, and there are as many as it takes. Without items
there is still one page.

`pagesFrom` is what a walk over the results of a store in memory gives from a position on. That it
paginates what is left of the results goes by induction on how much is left (`paginates_pagesFrom`),
and each token in it names the position of the page behind it (`pagesFrom_append`).
-/

namespace DerivedQuery

/-- Pages that hand out some items, `size` of them a page. -/
structure Paginates {α : Type} (pages : List (Page α)) (size : Nat) (items : List α) : Prop where
  count : pages.length = max 1 ((items.length + size - 1) / size)
  sizes : ∀ page ∈ pages, page.size = size
  full : ∀ page ∈ pages.dropLast, page.items.length = size ∧ page.next.isSome
  last : ∀ page ∈ pages.getLast?, page.next = none
  complete : pages.flatMap (·.items) = items

namespace Paginates

variable {α : Type} {page : Page α} {pages : List (Page α)} {size : Nat} {items : List α}

theorem ne_nil (h : Paginates pages size items) : pages ≠ [] := by
  intro hnil
  have hcount := h.count
  rw [hnil, List.length_nil] at hcount
  omega

/-- One page without a token. -/
theorem single (hsize : page.size = size) (hlen : page.items.length ≤ size)
    (hnext : page.next = none) :
    Paginates [page] size page.items where
  count := by
    have hdiv : (page.items.length + size - 1) / size ≤ 1 := by
      rcases Nat.eq_zero_or_pos size with hzero | hpos
      · rw [hzero, Nat.div_zero]; omega
      · have hlt : (page.items.length + size - 1) / size < 2 :=
          Nat.div_lt_of_lt_mul (by omega)
        omega
    rw [List.length_singleton]
    omega
  sizes := by simpa using hsize
  full := by simp
  last := by simpa using hnext
  complete := by simp

/-- A full page with a token in front of pages that hand out something. -/
theorem cons (hsize : page.size = size) (hpos : 0 < size) (hlen : page.items.length = size)
    (hnext : page.next.isSome) (hitems : items ≠ []) (h : Paginates pages size items) :
    Paginates (page :: pages) size (page.items ++ items) where
  count := by
    -- Since something is left, the pages behind are counted by the quotient and not by the `max`.
    have hleft : 0 < items.length := List.length_pos_iff.mpr hitems
    have hone : 1 ≤ (items.length + size - 1) / size := by
      rw [Nat.le_div_iff_mul_le hpos]
      omega
    have hmore : ((page.items ++ items).length + size - 1) / size
        = (items.length + size - 1) / size + 1 := by
      rw [← Nat.add_div_right _ hpos, List.length_append, hlen]
      congr 1
      omega
    rw [List.length_cons, h.count, hmore]
    omega
  sizes := by
    intro other hother
    rcases List.mem_cons.mp hother with rfl | hrest
    · exact hsize
    · exact h.sizes other hrest
  full := by
    rw [List.dropLast_cons_of_ne_nil h.ne_nil]
    intro other hother
    rcases List.mem_cons.mp hother with rfl | hrest
    · exact ⟨hlen, hnext⟩
    · exact h.full other hrest
  last := by
    rw [List.getLast?_cons_of_ne_nil h.ne_nil]
    exact h.last
  complete := by rw [List.flatMap_cons, h.complete]

end Paginates

namespace MemoryStore

/-! ## One batch -/

theorem documents_batch (results : List Document) (skip size : Nat) :
    (batch results skip size).documents = (results.drop skip).take size := by
  simp only [batch, List.drop_take]
  rcases Nat.le_total (skip + size) results.length with hle | hle
  · rw [Nat.min_eq_left hle, Nat.add_sub_cancel_left]
  · rw [Nat.min_eq_right hle, List.take_of_length_le (by simp),
      List.take_of_length_le (by simp; omega)]

theorem continuation_batch (results : List Document) (skip size : Nat) :
    (batch results skip size).continuation
      = if skip + size < results.length then some (SkipToken.ofSkip (skip + size)) else none := by
  simp only [batch]
  split <;> split
  · rw [Nat.min_eq_left (by omega)]
  · omega
  · omega
  · rfl

/-! ## All pages -/

/-- The page of a state that starts behind the first `skip` results. -/
def pageAt (state : PageState) (results : List Document) (skip : Nat) : Page Document :=
  let answer := batch results skip state.size
  Page.ofState state answer.documents answer.continuation

/-- The pages of a walk that starts behind the first `skip` results. -/
def pagesFrom (state : PageState) (results : List Document) (skip : Nat) : List (Page Document) :=
  if 0 < state.size ∧ skip + state.size < results.length then
    pageAt state results skip :: pagesFrom state results (skip + state.size)
  else [pageAt state results skip]
termination_by results.length - skip

theorem items_pageAt (state : PageState) (results : List Document) (skip : Nat) :
    (pageAt state results skip).items = (results.drop skip).take state.size :=
  documents_batch results skip state.size

theorem next_pageAt (state : PageState) (results : List Document) (skip : Nat) :
    (pageAt state results skip).next
      = if skip + state.size < results.length then some (SkipToken.ofSkip (skip + state.size))
        else none :=
  continuation_batch results skip state.size

theorem pagesFrom_of_more {state : PageState} {results : List Document} {skip : Nat}
    (hpos : 0 < state.size) (hmore : skip + state.size < results.length) :
    pagesFrom state results skip
      = pageAt state results skip :: pagesFrom state results (skip + state.size) := by
  rw [pagesFrom, if_pos ⟨hpos, hmore⟩]

theorem pagesFrom_of_end {state : PageState} {results : List Document} {skip : Nat}
    (hend : ¬skip + state.size < results.length) :
    pagesFrom state results skip = [pageAt state results skip] := by
  rw [pagesFrom, if_neg fun h => hend h.2]

/-- Where a state stands does not matter to the pages from a position on. -/
theorem pagesFrom_congr (state other : PageState) (hsize : other.size = state.size)
    (hsort : other.sort = state.sort) (results : List Document) (skip : Nat) :
    pagesFrom other results skip = pagesFrom state results skip := by
  have hpage : ∀ at_, pageAt other results at_ = pageAt state results at_ := by
    intro at_
    simp only [pageAt, Page.ofState, hsize, hsort]
  fun_induction pagesFrom state results skip with
  | case1 skip h ih =>
    rw [pagesFrom_of_more (hsize ▸ h.1) (hsize ▸ h.2), hpage, hsize, ih]
  | case2 skip h =>
    rw [pagesFrom, if_neg (hsize ▸ h), hpage]

/-- **The pages of a walk hand out the results from its start on.** -/
theorem paginates_pagesFrom {state : PageState} (hpos : 0 < state.size) (results : List Document)
    (skip : Nat) : Paginates (pagesFrom state results skip) state.size (results.drop skip) := by
  fun_induction pagesFrom state results skip with
  | case1 skip h ih =>
    have hitems : results.drop (skip + state.size) ≠ [] := by
      rw [ne_eq, List.drop_eq_nil_iff]
      omega
    have hsplit : results.drop skip
        = (pageAt state results skip).items ++ results.drop (skip + state.size) := by
      rw [items_pageAt, ← List.drop_drop, List.take_append_drop]
    rw [hsplit]
    refine Paginates.cons rfl hpos ?_ ?_ hitems ih
    · rw [items_pageAt, List.length_take, List.length_drop]
      omega
    · rw [next_pageAt, if_pos h.2]
      rfl
  | case2 skip h =>
    have hitems : (pageAt state results skip).items = results.drop skip := by
      rw [items_pageAt, List.take_of_length_le]
      rw [List.length_drop]
      omega
    have hlen : (pageAt state results skip).items.length ≤ state.size := by
      rw [items_pageAt, List.length_take]
      omega
    rw [← hitems]
    refine Paginates.single rfl hlen ?_
    rw [next_pageAt, if_neg fun hlt => h ⟨hpos, hlt⟩]

/-- Each page but the last hands out something. -/
theorem length_pagesFrom_le (state : PageState) (results : List Document) (skip : Nat) :
    (pagesFrom state results skip).length ≤ results.length - skip + 1 := by
  fun_induction pagesFrom state results skip with
  | case1 skip h ih =>
    rw [List.length_cons]
    omega
  | case2 skip h =>
    rw [List.length_singleton]
    omega

theorem sort_of_mem_pagesFrom {state : PageState} {results : List Document} {skip : Nat}
    {page : Page Document} (h : page ∈ pagesFrom state results skip) : page.sort = state.sort := by
  fun_induction pagesFrom state results skip with
  | case1 skip hmore ih =>
    rcases List.mem_cons.mp h with rfl | hrest
    · exact rfl
    · exact ih hrest
  | case2 skip hend =>
    rw [List.mem_singleton.mp h]
    exact rfl

/-- A page with a token is followed by the walk that starts where the token says. -/
theorem pagesFrom_append {state : PageState} (hpos : 0 < state.size) {results : List Document}
    {skip : Nat} {delivered rest : List (Page Document)} {page : Page Document}
    {token : ContinuationToken}
    (h : pagesFrom state results skip = delivered ++ page :: rest) (htoken : page.next = some token) :
    ∃ reached, token = SkipToken.ofSkip reached ∧ reached < results.length ∧
      rest = pagesFrom state results reached := by
  fun_induction pagesFrom state results skip generalizing delivered with
  | case1 skip hmore ih =>
    -- The page is the first one, or it is further back and `ih` knows it.
    cases delivered with
    | nil =>
      rw [List.nil_append, List.cons_eq_cons] at h
      obtain ⟨hpage, hrest⟩ := h
      rw [← hpage, next_pageAt, if_pos hmore.2, Option.some.injEq] at htoken
      exact ⟨skip + state.size, htoken.symm, hmore.2, hrest.symm⟩
    | cons first others =>
      rw [List.cons_append, List.cons_eq_cons] at h
      exact ih h.2
  | case2 skip hend =>
    cases delivered with
    | nil =>
      rw [List.nil_append, List.cons_eq_cons] at h
      rw [← h.1, next_pageAt, if_neg fun hlt => hend ⟨hpos, hlt⟩] at htoken
      cases htoken
    | cons first others => simp at h

end MemoryStore

end DerivedQuery
