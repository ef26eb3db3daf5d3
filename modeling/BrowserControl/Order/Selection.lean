import Mathlib.Algebra.Order.Ring.Int
import Mathlib.Data.List.Nodup
import Mathlib.Order.Basic

/-!
# Selection from a sorted list

`Order.select xs i` is the element of `xs` with the number `i`, counted from the end if `i` is
negative. In a list that is strictly sorted by a key it is told by how many elements have a smaller
key (`select_eq_some_iff`), which does not depend on the order in which they are counted.
-/

namespace BrowserControl.Order

variable {α β : Type*}

/-- The element with a number, counted from the end for a negative one. -/
def select (xs : List α) (i : ℤ) : Option α :=
  let j := if i < 0 then xs.length + i else i
  if j < 0 then none else xs[j.toNat]?

/-- What is selected is in the list. -/
theorem mem_of_select {xs : List α} {i : ℤ} {x : α} (h : select xs i = some x) : x ∈ xs := by
  dsimp only [select] at h
  generalize (if i < 0 then (xs.length + i : ℤ) else i) = j at h
  split at h
  · contradiction
  · exact List.mem_of_getElem? h

variable [LinearOrder β] {key : α → β}

/-- In a sorted list as many elements have a smaller key as stand in front. -/
theorem countP_getElem {xs : List α} (h : xs.Pairwise (key · < key ·)) {j : ℕ}
    (hj : j < xs.length) :
    xs.countP (key · < key xs[j]) = j := by
  induction xs generalizing j with
  | nil => contradiction
  | cons x xs ih =>
    -- The keys grow: those before the place are below, the others are not.
    obtain ⟨h_x, h_xs⟩ := List.pairwise_cons.mp h
    cases j with
    | zero =>
      rw [List.countP_eq_zero]
      intro y hy
      rw [decide_eq_true_eq, not_lt]
      rcases List.mem_cons.mp hy with rfl | hy
      · exact le_rfl
      · exact (h_x y hy).le
    | succ j =>
      have hj' : j < xs.length := Nat.lt_of_succ_lt_succ hj
      have h_lt : key x < key xs[j] := h_x _ (List.getElem_mem hj')
      rw [List.getElem_cons_succ, List.countP_cons, ih h_xs hj', if_pos (decide_eq_true h_lt)]

/-- What is selected from an ordered list, by its rank. -/
theorem select_eq_some_iff {xs : List α} (h : xs.Pairwise (key · < key ·)) {i : ℤ} {x : α} :
    select xs i = some x ↔
      x ∈ xs ∧ (xs.countP (key · < key x) : ℤ) = if i < 0 then xs.length + i else i := by
  constructor
  · intro h_at
    refine ⟨mem_of_select h_at, ?_⟩
    dsimp only [select] at h_at
    -- The index is counted from the front from here on.
    generalize (if i < 0 then (xs.length + i : ℤ) else i) = j at h_at ⊢
    split at h_at
    · contradiction
    · obtain ⟨hj, rfl⟩ := List.getElem?_eq_some_iff.mp h_at
      rw [countP_getElem h hj]
      omega
  · rintro ⟨h_mem, h_count⟩
    obtain ⟨j, hj, rfl⟩ := List.getElem_of_mem h_mem
    rw [countP_getElem h hj] at h_count
    dsimp only [select]
    rw [← h_count, if_neg (by omega), Int.toNat_natCast]
    exact List.getElem?_eq_getElem hj

end BrowserControl.Order
