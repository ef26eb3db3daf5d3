import Mathlib.Data.Finset.Card
import Mathlib.Data.Finset.Dedup
import Mathlib.Logic.Relation

/-!
# A search with a worklist

`Worklist.search` finds everything that can be reached from some starting points: it takes the
first point of a queue, looks at its successors, and puts those it has not seen at the end of the
queue. The successors come from a finite set, so the search ends; `Worklist.mem_search` says that
it finds the points that are reached by a chain of successors, and no others.
-/

namespace Transition.Worklist

variable {α : Type*} [DecidableEq α]

/-- What has been seen and what is still to be looked at, after the successors `new`. -/
def push (seen queue : List α) : List α → List α × List α
  | [] => (seen, queue)
  | b :: new => if b ∈ seen then push seen queue new else push (seen ++ [b]) (queue ++ [b]) new

/-- What `push` puts into the queue was not seen before, and is seen now. -/
theorem push_eq (seen queue new : List α) :
    ∃ fresh, push seen queue new = (seen ++ fresh, queue ++ fresh) ∧
      (∀ b ∈ fresh, b ∈ new ∧ b ∉ seen) ∧ ∀ b ∈ new, b ∈ seen ++ fresh := by
  induction new generalizing seen queue with
  | nil => exact ⟨[], by rw [push, List.append_nil, List.append_nil], by simp, by simp⟩
  | cons b new ih =>
    -- an element that was seen is not queued again
    by_cases h_b : b ∈ seen
    · obtain ⟨fresh, h_push, h_fresh, h_new⟩ := ih seen queue
      refine ⟨fresh, ?_, ?_, ?_⟩
      · rw [push, if_pos h_b, h_push]
      · intro c hc
        exact ⟨List.mem_cons_of_mem b (h_fresh c hc).1, (h_fresh c hc).2⟩
      · intro c hc
        rcases List.mem_cons.mp hc with rfl | hc
        · exact List.mem_append_left fresh h_b
        · exact h_new c hc
    · obtain ⟨fresh, h_push, h_fresh, h_new⟩ := ih (seen ++ [b]) (queue ++ [b])
      refine ⟨b :: fresh, ?_, ?_, ?_⟩
      · rw [push, if_neg h_b, h_push, List.append_assoc, List.append_assoc]
        rfl
      · intro c hc
        rcases List.mem_cons.mp hc with rfl | hc
        · exact ⟨List.mem_cons_self, h_b⟩
        · obtain ⟨h_mem, h_not⟩ := h_fresh c hc
          exact ⟨List.mem_cons_of_mem b h_mem, fun h => h_not (List.mem_append_left [b] h)⟩
      · intro c hc
        have h_assoc : seen ++ b :: fresh = seen ++ [b] ++ fresh := by simp
        rw [h_assoc]
        rcases List.mem_cons.mp hc with rfl | hc
        · exact List.mem_append_left fresh (List.mem_append_right seen (List.mem_singleton_self _))
        · exact h_new c hc

/-- The loop of the search. -/
def loop (succ : α → List α) (bound : Finset α) (h_succ : ∀ a, ∀ b ∈ succ a, b ∈ bound)
    (queue seen : List α) : List α :=
  match queue with
  | [] => seen
  | a :: queue =>
    loop succ bound h_succ (push seen queue (succ a)).2 (push seen queue (succ a)).1
termination_by ((bound \ seen.toFinset).card, queue.length)
decreasing_by
  obtain ⟨fresh, h_push, h_fresh, -⟩ := push_eq seen queue (succ a)
  rw [h_push]
  cases fresh with
  | nil =>
    -- Nothing is new: the queue gets shorter.
    rw [List.append_nil, List.append_nil]
    exact Prod.Lex.right _ (Nat.lt_succ_self _)
  | cons b fresh =>
    -- `b` is new, and there is less to be found.
    apply Prod.Lex.left
    obtain ⟨h_mem, h_not⟩ := h_fresh b List.mem_cons_self
    apply Finset.card_lt_card
    rw [Finset.ssubset_iff_of_subset]
    · refine ⟨b, ?_, ?_⟩
      · exact Finset.mem_sdiff.mpr ⟨h_succ a b h_mem, by simpa using h_not⟩
      · intro h
        exact (Finset.mem_sdiff.mp h).2 (by simp)
    · apply Finset.sdiff_subset_sdiff (Finset.Subset.refl _)
      intro c hc
      simp only [List.toFinset_append, Finset.mem_union]
      exact .inl hc

/-- Everything that is reached from `start`. -/
def search (succ : α → List α) (bound : Finset α) (h_succ : ∀ a, ∀ b ∈ succ a, b ∈ bound)
    (start : List α) : List α := loop succ bound h_succ start.dedup start.dedup

/-- A point with a successor. -/
def Step (succ : α → List α) (a b : α) : Prop := b ∈ succ a

variable {succ : α → List α} {bound : Finset α} {h_succ : ∀ a, ∀ b ∈ succ a, b ∈ bound}

/-- The loop keeps what has been seen, finds what is reached from it and nothing else, and leaves
out no successor. -/
theorem loop_spec {queue seen : List α} (h_queue : ∀ a ∈ queue, a ∈ seen)
    (h_done : ∀ a ∈ seen, a ∉ queue → ∀ b ∈ succ a, b ∈ seen) :
    (∀ a ∈ seen, a ∈ loop succ bound h_succ queue seen) ∧
    (∀ b ∈ loop succ bound h_succ queue seen,
      ∃ a ∈ seen, Relation.ReflTransGen (Step succ) a b) ∧
    ∀ a ∈ loop succ bound h_succ queue seen, ∀ b ∈ succ a,
      b ∈ loop succ bound h_succ queue seen := by
  fun_induction loop succ bound h_succ queue seen with
  | case1 seen =>
    refine ⟨fun a ha => ha, fun b hb => ⟨b, hb, .refl⟩, fun a ha => h_done a ha List.not_mem_nil⟩
  | case2 seen a queue ih =>
    obtain ⟨fresh, h_push, h_fresh, h_new⟩ := push_eq seen queue (succ a)
    rw [h_push] at ih ⊢
    have h_queue' : ∀ b ∈ queue ++ fresh, b ∈ seen ++ fresh := by
      intro b hb
      rcases List.mem_append.mp hb with hb | hb
      · exact List.mem_append_left fresh (h_queue b (List.mem_cons_of_mem a hb))
      · exact List.mem_append_right seen hb
    -- what is not in the queue has its successors among the seen
    have h_done' : ∀ b ∈ seen ++ fresh, b ∉ queue ++ fresh → ∀ c ∈ succ b, c ∈ seen ++ fresh := by
      intro b hb h_not c hc
      rcases List.mem_append.mp hb with hb | hb
      · by_cases h_b : b = a
        · exact h_new c (h_b ▸ hc)
        · refine List.mem_append_left fresh (h_done b hb ?_ c hc)
          intro h_mem
          rcases List.mem_cons.mp h_mem with rfl | h_mem
          · exact h_b rfl
          · exact h_not (List.mem_append_left fresh h_mem)
      · exact absurd (List.mem_append_right queue hb) h_not
    obtain ⟨h_keeps, h_sound, h_closed⟩ := ih h_queue' h_done'
    refine ⟨fun b hb => h_keeps b (List.mem_append_left fresh hb), ?_, h_closed⟩
    intro b hb
    obtain ⟨c, hc, h_reach⟩ := h_sound b hb
    rcases List.mem_append.mp hc with hc | hc
    · exact ⟨c, hc, h_reach⟩
    · -- What is new is a successor of `a`.
      have h_step : Step succ a c := (h_fresh c hc).1
      exact ⟨a, h_queue a List.mem_cons_self, .head h_step h_reach⟩

/-- **The search is exact.** It finds the points that are reached from the starting points. -/
theorem mem_search {start : List α} {b : α} :
    b ∈ search succ bound h_succ start ↔
      ∃ a ∈ start, Relation.ReflTransGen (Step succ) a b := by
  obtain ⟨h_keeps, h_sound, h_closed⟩ := @loop_spec α _ succ bound h_succ start.dedup
    start.dedup (fun a ha => ha)
    fun a ha h_not => absurd ha h_not
  constructor
  · intro hb
    obtain ⟨a, ha, h_reach⟩ := h_sound b hb
    exact ⟨a, List.mem_dedup.mp ha, h_reach⟩
  · rintro ⟨a, ha, h_reach⟩
    induction h_reach with
    | refl => exact h_keeps a (List.mem_dedup.mpr ha)
    | tail _ h_step ih => exact h_closed _ ih _ h_step

end Transition.Worklist
