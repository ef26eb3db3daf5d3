import BrowserControl.NativeMessaging.Assembler
import BrowserControl.Encoding.Parts

/-!
# Streams of which some parts are there

What both assemblers do with a stream does not depend on who cut its message. For parts `f` and the
places that have been `seen`, this is what the entry of the stream is (`Gathers` for the host,
`gathered` for the extension), what it becomes with one more part, and what comes of it: with the
last part that was missing, all parts together are checked.
-/

namespace BrowserControl.NativeMessaging

open Encoding

variable {f : ℕ → Bytes} {total : ℕ}

/-! ### The host -/

/-- The entry of a stream has the parts that have been seen. -/
structure Gathers (f : ℕ → Bytes) (total : ℕ) (seen : ℕ → Prop) (item : Assembly) : Prop where
  parts : Parts f total item.parts
  seen : ∀ k, k ∈ item.parts.map Prod.fst ↔ seen k
  size : item.size = (item.parts.map fun p => p.2.length).sum

namespace Gathers

variable {seen : ℕ → Prop} {item : Assembly}

/-- A new entry has no parts. -/
theorem new (h : ∀ k, ¬ seen k) (sha256 : String) (now : ℕ) :
    Gathers f total seen ⟨total, sha256, [], 0, now⟩ where
  parts := .nil
  seen k := iff_of_false List.not_mem_nil (h k)
  size := rfl

/-- Only the parts that have been seen matter. -/
theorem congr (h : Gathers f total seen item) {g : ℕ → Bytes} {seen' : ℕ → Prop}
    (h_parts : ∀ k, seen k → f k = g k) (h_seen : ∀ k, seen k ↔ seen' k) :
    Gathers g total seen' item where
  parts := by
    refine ⟨h.parts.nodup, h.parts.lt, fun p h_p => ?_⟩
    rw [h.parts.eq p h_p]
    exact h_parts p.1 ((h.seen p.1).mp (List.mem_map_of_mem h_p))
  seen k := (h.seen k).trans (h_seen k)
  size := h.size

/-- A part is put into its place. -/
theorem add (h : Gathers f total seen item) {k : ℕ} (h_k : k < total) {part : Bytes}
    (h_part : ¬ seen k → part = f k) (now : ℕ) :
    Gathers f total (fun j => seen j ∨ j = k) (item.add k part now) := by
  unfold Assembly.add
  rw [h.parts.lookup]
  by_cases h_mem : k ∈ item.parts.map Prod.fst
  -- a part that is there already changes nothing
  · rw [if_pos h_mem, if_pos Option.isSome_some]
    refine ⟨h.parts, fun j => ?_, h.size⟩
    rw [h.seen]
    constructor
    · exact Or.inl
    · intro h_j
      refine h_j.elim id fun h_eq => ?_
      rw [h_eq]
      exact (h.seen k).mp h_mem
  -- a new one is kept, and counted
  · rw [if_neg h_mem, if_neg (by simp), h_part fun h_seen => h_mem ((h.seen k).mpr h_seen)]
    refine ⟨h.parts.append h_k h_mem, fun j => ?_, ?_⟩
    · rw [List.map_append, List.mem_append, h.seen]
      exact or_congr_right List.mem_singleton
    · show item.size + (f k).length = _
      rw [h.size, List.map_append, List.sum_append]
      rfl

/-- An entry does not get too long. -/
theorem size_le (h : Gathers f total seen item) :
    item.size ≤ ((List.range total).flatMap f).length := by
  rw [h.size]
  exact h.parts.sum_length_le

/-- What comes of a stream that has got a part. -/
theorem settle (h : Gathers f total seen item) (h_total : item.total = total)
    (h_size : item.size ≤ MaxAssembledSize) (digest : Bytes → Vector UInt8 32) (a : Assembler)
    (c : Chunk) :
    ((∀ j < total, seen j) ∧ item.size = ((List.range total).flatMap f).length ∧
        a.settle digest c item = (checkResult digest c.sha256 ((List.range total).flatMap f),
          Function.update a c.id none)) ∨
      (¬ (∀ j < total, seen j) ∧
        a.settle digest c item = (.ok none, Function.update a c.id (some item))) := by
  -- all parts are there exactly if there are as many as declared
  have h_length : item.parts.length = item.total ↔ ∀ j < total, seen j := by
    rw [h_total, h.parts.length_eq_iff]
    exact forall₂_congr fun j _ => h.seen j
  unfold Assembler.settle
  rw [if_neg (Nat.not_lt.mpr h_size)]
  by_cases h_all : ∀ j < total, seen j
  · have h_parts : ∀ j < total, j ∈ item.parts.map Prod.fst :=
      fun j h_j => (h.seen j).mpr (h_all j h_j)
    refine .inl ⟨h_all, ?_, ?_⟩
    · rw [h.size]
      exact h.parts.sum_length_eq h_parts
    · rw [if_neg (not_not.mpr (h_length.mpr h_all)), h_total, h.parts.mapM_lookup h_parts]
      rfl
  · exact .inr ⟨h_all, if_pos (h_length.not.mpr h_all)⟩

end Gathers

/-- A part does not change what the stream declares. -/
theorem add_declares (item : Assembly) (k : ℕ) (part : Bytes) (now : ℕ) :
    (item.add k part now).total = item.total ∧ (item.add k part now).sha256 = item.sha256 ∧
      (item.add k part now).updatedAt = now := by
  unfold Assembly.add
  split_ifs
  · exact ⟨rfl, rfl, rfl⟩
  · exact ⟨rfl, rfl, rfl⟩

/-! ### The extension -/

/-- The parts that have been seen. -/
def gatheredParts (f : ℕ → Bytes) (total : ℕ) (seen : List ℕ) : List (Option Bytes) :=
  (List.range total).map fun j => if j ∈ seen then some (f j) else none

/-- The entry of a stream of which these chunks have been seen. -/
def gathered (f : ℕ → Bytes) (total : ℕ) (sha256 : String) (createdAt : ℕ) (seen : List ℕ) :
    ChunkAssembly where
  createdAt := createdAt
  total := total
  sha256 := sha256
  size := (seen.map fun j => (f j).length).sum
  chunks := gatheredParts f total seen

/-- There is a place for each part. -/
theorem length_gatheredParts (f : ℕ → Bytes) (total : ℕ) (seen : List ℕ) :
    (gatheredParts f total seen).length = total := by
  rw [gatheredParts, List.length_map, List.length_range]

/-- The parts that have come are in their places. -/
theorem getElem?_gatheredParts {seen : List ℕ} {k : ℕ} (h_k : k < total) :
    (gatheredParts f total seen)[k]? = some (if k ∈ seen then some (f k) else none) := by
  rw [gatheredParts, List.getElem?_map, List.getElem?_range h_k]
  rfl

/-- Another part comes. -/
theorem set_gatheredParts {seen : List ℕ} {k : ℕ} :
    (gatheredParts f total seen).set k (some (f k)) = gatheredParts f total (seen ++ [k]) := by
  apply List.ext_getElem?
  intro j
  by_cases h_j : j < total
  · rw [List.getElem?_set, getElem?_gatheredParts h_j, getElem?_gatheredParts h_j]
    -- the place that is set, or another
    by_cases h : k = j
    · subst h
      rw [if_pos rfl, length_gatheredParts, if_pos h_j, if_pos (by simp)]
    · rw [if_neg h]
      have h_mem : j ∈ seen ++ [k] ↔ j ∈ seen := by
        simp only [List.mem_append, List.mem_singleton]
        exact or_iff_left fun h_eq => h h_eq.symm
      simp only [h_mem]
  · have h_none (seen : List ℕ) : (gatheredParts f total seen)[j]? = none := by
      apply List.getElem?_eq_none
      rw [length_gatheredParts]
      exact Nat.le_of_not_lt h_j
    rw [h_none, List.getElem?_set, h_none]
    split_ifs with h h_lt
    · rw [length_gatheredParts] at h_lt
      omega
    · rfl
    · rfl

/-- The entry of a stream that begins. -/
theorem gathered_nil (f : ℕ → Bytes) (total : ℕ) (sha256 : String) (now : ℕ) :
    gathered f total sha256 now [] = ⟨now, total, sha256, 0, List.replicate total none⟩ := by
  have h_parts : gatheredParts f total [] = List.replicate total none := by
    refine List.eq_replicate_iff.mpr ⟨length_gatheredParts f total [], fun part h_part => ?_⟩
    obtain ⟨j, -, rfl⟩ := List.mem_map.mp h_part
    exact if_neg List.not_mem_nil
  rw [gathered, h_parts]
  rfl

/-- A chunk that has not been seen is put into its place. -/
theorem add_gathered {sha256 : String} {createdAt : ℕ} {seen : List ℕ} {k : ℕ} (h_k : k < total)
    (h_new : k ∉ seen) :
    (gathered f total sha256 createdAt seen).add k (f k) =
      gathered f total sha256 createdAt (seen ++ [k]) := by
  unfold ChunkAssembly.add
  have h_none : ((gathered f total sha256 createdAt seen).chunks[k]?).join = none := by
    show ((gatheredParts f total seen)[k]?).join = none
    rw [getElem?_gatheredParts h_k, if_neg h_new]
    rfl
  rw [h_none]
  show ChunkAssembly.mk _ _ _ _ ((gatheredParts f total seen).set k _) = _
  rw [set_gatheredParts]
  simp [gathered]

/-- All parts have been seen, or one is missing. -/
theorem mapM_gatheredParts (f : ℕ → Bytes) (total : ℕ) (seen : List ℕ) :
    ((∀ k < total, k ∈ seen) ∧
        (gatheredParts f total seen).mapM (fun chunk => chunk) = some ((List.range total).map f)) ∨
      (¬ (∀ k < total, k ∈ seen) ∧
        (gatheredParts f total seen).mapM (fun chunk => chunk) = none) := by
  by_cases h_all : ∀ k < total, k ∈ seen
  · refine .inl ⟨h_all, ?_⟩
    have h_parts : gatheredParts f total seen = ((List.range total).map f).map some := by
      rw [List.map_map]
      exact List.map_congr_left fun k h_k => if_pos (h_all k (List.mem_range.mp h_k))
    rw [h_parts]
    refine (mapM_eq_some (f := fun part : Option Bytes => part.getD []) ?_).trans ?_
    · intro part h_part
      obtain ⟨bytes, -, rfl⟩ := List.mem_map.mp h_part
      rfl
    · rw [List.map_map]
      exact congrArg some (List.map_id _)
  -- a part is missing, and its place is empty
  · refine .inr ⟨h_all, ?_⟩
    obtain ⟨k, h_k, h_new⟩ : ∃ k < total, k ∉ seen := by
      simpa only [not_forall, exists_prop] using h_all
    refine mapM_eq_none (x := none) ?_ rfl
    exact List.mem_map.mpr ⟨k, List.mem_range.mpr h_k, if_neg h_new⟩

/-- The parts that have been seen are not longer than all of them. -/
theorem sum_gathered_le {seen : List ℕ} (h_nodup : seen.Nodup) (h_lt : ∀ k ∈ seen, k < total) :
    (seen.map fun j => (f j).length).sum ≤ ((List.range total).flatMap f).length := by
  have h_parts : Parts f total (seen.map fun j => (j, f j)) := by
    refine ⟨?_, ?_, ?_⟩
    · rw [List.map_map]
      exact (List.map_id seen).symm ▸ h_nodup
    · intro p h_p
      obtain ⟨j, h_j, rfl⟩ := List.mem_map.mp h_p
      exact h_lt j h_j
    · intro p h_p
      obtain ⟨j, -, rfl⟩ := List.mem_map.mp h_p
      rfl
  have h_le := h_parts.sum_length_le
  rw [List.map_map] at h_le
  exact h_le

/-- A chunk of the message that has not been seen. -/
theorem acceptChunk_gathered (digest : Bytes → Vector UInt8 32) {c : Chunk} {k : ℕ}
    (h_total : c.total = total) (h_index : c.index = k)
    (h_atob : Base64.atob c.data.toList = some (f k)) (h_k : k < total) {seen : List ℕ}
    (h_new : k ∉ seen) (a : ChunkAssembler) (createdAt : ℕ) :
    a.acceptChunk digest (gathered f total c.sha256 createdAt seen) c =
      a.settle digest c.id (gathered f total c.sha256 createdAt (seen ++ [k])) := by
  have h_consistent : ¬ (((gathered f total c.sha256 createdAt seen).total : ℤ) ≠ c.total ∨
      (gathered f total c.sha256 createdAt seen).sha256 ≠ c.sha256) :=
    not_or.mpr ⟨not_not.mpr h_total.symm, not_not.mpr rfl⟩
  -- The place of the chunk is still empty.
  have h_previous : ((gathered f total c.sha256 createdAt seen).chunks[k]?).join = none := by
    show ((gatheredParts f total seen)[k]?).join = none
    rw [getElem?_gatheredParts h_k, if_neg h_new]
    rfl
  rw [ChunkAssembler.acceptChunk, if_neg h_consistent, h_atob, h_index, Int.toNat_natCast]
  dsimp only
  rw [h_previous, Option.any_none, if_neg Bool.false_ne_true, add_gathered h_k h_new]

/-- What comes of a stream with the chunks that have been seen. -/
theorem settle_gathered (digest : Bytes → Vector UInt8 32) {seen : List ℕ} (h_nodup : seen.Nodup)
    (h_lt : ∀ k ∈ seen, k < total)
    (h_length : ((List.range total).flatMap f).length ≤ MAX_ASSEMBLED_BYTES) (a : ChunkAssembler)
    (id sha256 : String) (createdAt : ℕ) :
    ((∀ k < total, k ∈ seen) ∧ a.settle digest id (gathered f total sha256 createdAt seen) =
        (parseJoined digest sha256 ((List.range total).flatMap f), a.delete id)) ∨
      (¬ (∀ k < total, k ∈ seen) ∧ a.settle digest id (gathered f total sha256 createdAt seen) =
        (.ok none, a.replace id (gathered f total sha256 createdAt seen))) := by
  -- The size is that of the parts that came.
  have h_size : ¬ (gathered f total sha256 createdAt seen).size > MAX_ASSEMBLED_BYTES :=
    Nat.not_lt.mpr ((sum_gathered_le h_nodup h_lt).trans h_length)
  have h_chunks : (gathered f total sha256 createdAt seen).chunks = gatheredParts f total seen :=
    rfl
  rw [ChunkAssembler.settle, if_neg h_size, h_chunks]
  refine (mapM_gatheredParts f total seen).imp (fun h_all => ⟨h_all.1, ?_⟩)
    fun h_missing => ⟨h_missing.1, ?_⟩
  · rw [h_all.2]
    rfl
  · rw [h_missing.2]

end BrowserControl.NativeMessaging
