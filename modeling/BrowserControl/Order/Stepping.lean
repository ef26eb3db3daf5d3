import Mathlib.Algebra.Order.Floor.Ring
import Mathlib.Algebra.Order.Field.Basic
import Mathlib.Order.Interval.Set.Basic

/-!
# Loops that step through an interval

`Stepping.loop` is the loop `for (v = a; v < b; v += d)`. It visits the points `starts d a b`
(`loop_eq_foldlM`), and each of them begins a piece of the interval: together the pieces are the
interval (`mem_Ico_iff_starts`), and each ends before the next one begins (`pairwise_starts`).
-/

namespace BrowserControl.Order.Stepping

universe u v

variable {α : Type*} [Field α] [LinearOrder α]

/-- How many steps it takes from `a` to `b`. -/
def steps [FloorRing α] (d a b : α) : ℕ := ⌈(b - a) / d⌉.toNat

/-- A step brings the end nearer. -/
theorem steps_lt [IsStrictOrderedRing α] [FloorRing α] {d a b : α} (h_step : 0 < d) (h : a < b) :
    steps d (a + d) b < steps d a b := by
  have h_pos : 0 < ⌈(b - a) / d⌉ := Int.ceil_pos.mpr (div_pos (sub_pos.mpr h) h_step)
  have h_sub : (b - (a + d)) / d = (b - a) / d - 1 := by
    rw [← sub_sub, sub_div, div_self h_step.ne']
  rw [steps, steps, h_sub, Int.ceil_sub_one]
  omega

variable (d : {d : α // 0 < d})

/-- `for (v = a; v < b; v += d)` -/
def loop [IsStrictOrderedRing α] [FloorRing α] {m : Type u → Type v} [Monad m] {β : Type u} (b : α)
    (body : β → α → m β) (acc : β) (a : α) : m β :=
  if a < b then do
    let acc ← body acc a
    loop b body acc (a + d)
  else pure acc
termination_by steps d.1 a b
decreasing_by exact steps_lt d.2 ‹_›

/-- The points that the loop visits. -/
def starts [IsStrictOrderedRing α] [FloorRing α] (a b : α) : List α :=
  if a < b then a :: starts (a + d) b else []
termination_by steps d.1 a b
decreasing_by exact steps_lt d.2 ‹_›

variable [IsStrictOrderedRing α] [FloorRing α] {d} {a b : α}

/-- The first step. -/
theorem starts_of_lt (h : a < b) : starts d a b = a :: starts d (a + d) b := by
  rw [starts, if_pos h]

/-- There is no step. -/
theorem starts_of_le (h : b ≤ a) : starts d a b = [] := by
  rw [starts, if_neg h.not_gt]

/-- The loop is a fold over these points. -/
theorem loop_eq_foldlM {m : Type u → Type v} [Monad m] [LawfulMonad m] {β : Type u}
    (body : β → α → m β) (acc : β) (a : α) :
    loop d b body acc a = (starts d a b).foldlM body acc := by
  induction a using starts.induct (d := d) (b := b) generalizing acc with
  | case1 a h ih =>
    rw [loop, if_pos h, starts_of_lt h, List.foldlM_cons]
    exact bind_congr fun acc' => ih acc'
  | case2 a h => rw [loop, if_neg h, starts_of_le (not_lt.mp h), List.foldlM_nil]

/-- Every step is within the bounds. -/
theorem mem_starts {s : α} (h : s ∈ starts d a b) : a ≤ s ∧ s < b := by
  induction a using starts.induct (d := d) (b := b) with
  | case1 a h_lt ih =>
    rw [starts_of_lt h_lt] at h
    rcases List.mem_cons.mp h with rfl | h
    · exact ⟨le_rfl, h_lt⟩
    · obtain ⟨h_le, h_end⟩ := ih h
      exact ⟨(le_add_of_nonneg_right d.2.le).trans h_le, h_end⟩
  | case2 a h_not =>
    rw [starts_of_le (not_lt.mp h_not)] at h
    exact absurd h List.not_mem_nil

/-- **The pieces are the interval.** -/
theorem mem_Ico_iff_starts {x : α} :
    x ∈ Set.Ico a b ↔ ∃ s ∈ starts d a b, x ∈ Set.Ico s (min (s + d) b) := by
  constructor
  · intro h
    induction a using starts.induct (d := d) (b := b) with
    | case1 a h_lt ih =>
      rw [starts_of_lt h_lt]
      by_cases h_first : x < a + d
      · exact ⟨a, List.mem_cons_self, h.1, lt_min h_first h.2⟩
      · -- The point is beyond the first piece.
        obtain ⟨s, hs, hx⟩ := ih ⟨not_lt.mp h_first, h.2⟩
        exact ⟨s, List.mem_cons_of_mem _ hs, hx⟩
    | case2 a h_not => exact absurd (h.1.trans_lt h.2) h_not
  · rintro ⟨s, hs, h_s, hx⟩
    exact ⟨(mem_starts hs).1.trans h_s, hx.trans_le (min_le_right ..)⟩

/-- Each piece ends before the next one begins. -/
theorem pairwise_starts : (starts d a b).Pairwise fun s t => s + (d : α) ≤ t := by
  induction a using starts.induct (d := d) (b := b) with
  | case1 a h ih =>
    rw [starts_of_lt h]
    exact List.pairwise_cons.mpr ⟨fun t ht => (mem_starts ht).1, ih⟩
  | case2 a h =>
    rw [starts_of_le (not_lt.mp h)]
    exact .nil

end BrowserControl.Order.Stepping
