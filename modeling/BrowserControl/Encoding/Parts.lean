import Mathlib.Algebra.BigOperators.Group.List.Basic
import Mathlib.Algebra.Order.BigOperators.Group.List
import Mathlib.Data.List.Perm.Subperm
import Mathlib.Data.List.Nodup
import Mathlib.Algebra.Order.Group.Nat
import Mathlib.Algebra.GroupWithZero.Nat

/-!
# Parts by their place

A message that arrives in parts is kept as a list of parts with their places, in the order of their
arrival. `Parts f total parts` says that no place occurs twice, that every place is below `total`
and that every part is the one that belongs there. Such a list is complete when it has `total`
entries (`Parts.length_eq_iff`); then the parts are looked up one by one (`Parts.mapM_lookup`), and
before that they are not longer than all of them together (`Parts.sum_length_le`).
-/

namespace Encoding

variable {α : Type*}

/-- The parts that have arrived are parts of one message. -/
structure Parts (f : ℕ → List α) (total : ℕ) (parts : List (ℕ × List α)) : Prop where
  nodup : (parts.map Prod.fst).Nodup
  lt : ∀ p ∈ parts, p.1 < total
  eq : ∀ p ∈ parts, p.2 = f p.1

/-- A function that finds everything it looks for. -/
theorem mapM_eq_some {β : Type*} {γ : Type*} {g : β → Option γ} {f : β → γ} {l : List β}
    (h : ∀ x ∈ l, g x = some (f x)) : l.mapM g = some (l.map f) := by
  induction l with
  | nil => rfl
  | cons x l ih =>
    rw [List.forall_mem_cons] at h
    rw [List.mapM_cons, h.1, ih h.2]
    rfl

/-- A function that does not find something. -/
theorem mapM_eq_none {β : Type*} {γ : Type*} {g : β → Option γ} {l : List β} {x : β}
    (h_mem : x ∈ l) (h : g x = none) : l.mapM g = none := by
  induction l with
  | nil => cases h_mem
  | cons y l ih =>
    rw [List.mapM_cons]
    rcases List.mem_cons.mp h_mem with rfl | h_mem
    · rw [h]
      rfl
    · rw [ih h_mem]
      cases g y with
      | none => rfl
      | some z => rfl

namespace Parts

variable {f : ℕ → List α} {total : ℕ} {parts : List (ℕ × List α)}

theorem nil : Parts f total [] := ⟨List.nodup_nil, by simp, by simp⟩

/-- A part is found at its place. -/
theorem lookup (h : Parts f total parts) (k : ℕ) :
    parts.lookup k = if k ∈ parts.map Prod.fst then some (f k) else none := by
  obtain ⟨-, -, h_eq⟩ := h
  induction parts with
  | nil => rfl
  | cons p parts ih =>
    obtain ⟨i, part⟩ := p
    rw [List.forall_mem_cons] at h_eq
    rw [List.lookup_cons, List.map_cons]
    -- The indices are distinct, so the first hit is the only one.
    by_cases h_k : k = i
    · subst h_k
      rw [beq_self_eq_true, if_pos List.mem_cons_self]
      exact congrArg some h_eq.1
    · rw [beq_eq_false_iff_ne.mpr h_k]
      refine (ih h_eq.2).trans ?_
      simp only [List.mem_cons, h_k, false_or]

/-- A part that was missing is put at its place. -/
theorem append (h : Parts f total parts) {k : ℕ} (h_lt : k < total)
    (h_new : k ∉ parts.map Prod.fst) : Parts f total (parts ++ [(k, f k)]) where
  nodup := by
    rw [List.map_append, List.map_singleton]
    exact List.Nodup.append h.nodup (List.nodup_singleton k) (by simpa using h_new)
  lt := by
    intro p h_p
    rcases List.mem_append.mp h_p with h_p | h_p
    · exact h.lt p h_p
    · rw [List.mem_singleton.mp h_p]
      exact h_lt
  eq := by
    intro p h_p
    rcases List.mem_append.mp h_p with h_p | h_p
    · exact h.eq p h_p
    · rw [List.mem_singleton.mp h_p]

/-- The places of the parts are among all places. -/
theorem subperm (h : Parts f total parts) :
    List.Subperm (parts.map Prod.fst) (List.range total) := by
  apply List.subperm_of_subset h.nodup
  intro k h_k
  obtain ⟨p, h_p, rfl⟩ := List.mem_map.mp h_k
  exact List.mem_range.mpr (h.lt p h_p)

/-- All parts have arrived if there are as many as there are places. -/
theorem length_eq_iff (h : Parts f total parts) :
    parts.length = total ↔ ∀ k < total, k ∈ parts.map Prod.fst := by
  constructor
  · intro h_length k h_k
    have h_perm : (parts.map Prod.fst).Perm (List.range total) := by
      apply h.subperm.perm_of_length_le
      rw [List.length_range, List.length_map, h_length]
    exact h_perm.mem_iff.mpr (List.mem_range.mpr h_k)
  · intro h_all
    have h_le := h.subperm.length_le
    have h_ge : (List.range total).length ≤ (parts.map Prod.fst).length := by
      refine (List.subperm_of_subset List.nodup_range ?_).length_le
      exact fun k h_k => h_all k (List.mem_range.mp h_k)
    rw [List.length_range, List.length_map] at h_le h_ge
    exact Nat.le_antisymm h_le h_ge

/-- All parts are found. -/
theorem mapM_lookup (h : Parts f total parts) (h_all : ∀ k < total, k ∈ parts.map Prod.fst) :
    (List.range total).mapM (fun k => parts.lookup k) = some ((List.range total).map f) := by
  apply mapM_eq_some
  intro k h_k
  rw [h.lookup, if_pos (h_all k (List.mem_range.mp h_k))]

/-- What has arrived is not longer than the message. -/
theorem sum_length_le (h : Parts f total parts) :
    (parts.map fun p => p.2.length).sum ≤ ((List.range total).flatMap f).length := by
  obtain ⟨keys, h_perm, h_sub⟩ := h.subperm
  calc (parts.map fun p => p.2.length).sum
      = ((parts.map Prod.fst).map fun k => (f k).length).sum := by
        rw [List.map_map]
        congr 1
        exact List.map_congr_left fun p h_p => congrArg List.length (h.eq p h_p)
    _ = (keys.map fun k => (f k).length).sum := ((h_perm.map _).sum_nat).symm
    _ ≤ ((List.range total).map fun k => (f k).length).sum :=
        (h_sub.map _).sum_le_sum fun _ _ => Nat.zero_le _
    _ = ((List.range total).flatMap f).length := List.length_flatMap.symm

/-- All parts together are the message. -/
theorem sum_length_eq (h : Parts f total parts) (h_all : ∀ k < total, k ∈ parts.map Prod.fst) :
    (parts.map fun p => p.2.length).sum = ((List.range total).flatMap f).length := by
  have h_perm : (parts.map Prod.fst).Perm (List.range total) := by
    apply h.subperm.perm_of_length_le
    rw [List.length_range, List.length_map, h.length_eq_iff.mpr h_all]
  calc (parts.map fun p => p.2.length).sum
      = ((parts.map Prod.fst).map fun k => (f k).length).sum := by
        rw [List.map_map]
        congr 1
        exact List.map_congr_left fun p h_p => congrArg List.length (h.eq p h_p)
    _ = ((List.range total).map fun k => (f k).length).sum := (h_perm.map _).sum_nat
    _ = ((List.range total).flatMap f).length := List.length_flatMap.symm

end Parts

end Encoding
