import Mathlib.Data.List.Basic

/-!
# Buffers of recent elements

A buffer that holds a limited number of elements forgets the oldest ones: after any number of calls
of `push` it holds the `recent` elements of all that were pushed (`push_recent`).

A reader that remembers how many elements the buffer held finds what is new behind them as long as
nothing is forgotten, and only then (`drop_recent_eq_iff`).
-/

namespace BrowserControl.Order

variable {α : Type*} {limit : ℕ}

/-- The last elements of a list, `limit` of them if there are as many. -/
def recent (limit : ℕ) (xs : List α) : List α := xs.drop (xs.length - limit)

/-- An element is added, and the elements in front that are too many are taken away. -/
def push (limit : ℕ) (buffer : List α) (x : α) : List α :=
  let buffer := buffer ++ [x]
  if buffer.length > limit then buffer.drop (buffer.length - limit) else buffer

@[simp] theorem recent_nil : recent limit ([] : List α) = [] := List.drop_nil

@[simp] theorem length_recent (xs : List α) : (recent limit xs).length = min xs.length limit := by
  rw [recent, List.length_drop]
  omega

/-- Up to the limit all are recent. -/
theorem recent_of_length_le {xs : List α} (h : xs.length ≤ limit) : recent limit xs = xs := by
  rw [recent, Nat.sub_eq_zero_of_le h, List.drop_zero]

/-- The buffer holds the recent elements. -/
theorem push_recent (xs : List α) (x : α) :
    push limit (recent limit xs) x = recent limit (xs ++ [x]) := by
  -- The recent ones with `x` are a tail of the longer list.
  have h_append : recent limit xs ++ [x] = (xs ++ [x]).drop (xs.length - limit) := by
    rw [recent, List.drop_append_of_le_length (Nat.sub_le ..)]
  have h_length : (recent limit xs ++ [x]).length = min xs.length limit + 1 := by
    rw [List.length_append, length_recent, List.length_singleton]
  unfold push
  dsimp only
  split_ifs with h_full
  · rw [h_length] at h_full ⊢
    rw [h_append, List.drop_drop, recent, List.length_append, List.length_singleton]
    congr 1
    omega
  · rw [h_length] at h_full
    rw [h_append, recent, List.length_append, List.length_singleton]
    congr 1
    omega

/-- **What is new is behind what was there**, until something is forgotten: a reader who has found
`min seen limit` elements when `seen` had been pushed finds all elements that were pushed since, and
nothing else, if and only if none has been forgotten or none was pushed. -/
theorem drop_recent_eq_iff {xs : List α} {seen : ℕ} (h : seen ≤ xs.length) :
    (recent limit xs).drop (min seen limit) = xs.drop seen ↔
      xs.length ≤ limit ∨ xs.length = seen := by
  constructor
  · intro h_eq
    have h_length := congrArg List.length h_eq
    rw [List.length_drop, List.length_drop, length_recent] at h_length
    omega
  · rintro (h_few | rfl)
    · rw [recent_of_length_le h_few, Nat.min_eq_left (Nat.le_trans h h_few)]
    · rw [List.drop_eq_nil_of_le (Nat.le_of_eq (length_recent xs)), List.drop_length]

end BrowserControl.Order
