import BrowserControl.NativeMessaging.Integrity
import BrowserControl.NativeMessaging.Transport
import Mathlib.Data.List.Chain

/-!
# Messages that are delivered

A `Message` is cut into parts by anyone, with frames that carry them. A decoder delivers it if it
answers its last frame with it and the others with nothing, in whatever order they come
(`feed_sent`: it is enough to know what the decoder has after some of the frames).

* `host_delivers_iff`: the host delivers all messages of a stream if it has no live entry for it.
* `extension_delivers_iff`: the extension must also have room for an entry.
-/

namespace BrowserControl.NativeMessaging.Recovery

open Encoding Transition Integrity

variable (digest : Bytes → Vector UInt8 32)

/-! ### Messages -/

/-- A message in parts, and the frames that carry them. -/
structure Message where
  id : String
  total : ℕ
  parts : ℕ → Bytes
  frames : ℕ → Bytes

/-- The message that the parts make up. -/
def Message.text (m : Message) : Bytes := (List.range m.total).flatMap m.parts

/-- The chunk is the one at this place. -/
structure Message.IsChunk (m : Message) (k : ℕ) (c : Chunk) : Prop where
  id : c.id = m.id
  index : c.index = k
  total : c.total = m.total
  sha256 : c.sha256 = digestText digest m.text

/-- The message keeps to the limits, and its frames are read as its chunks. -/
structure Message.Valid (read : Bytes → Option (Chunk × Bytes)) (m : Message) : Prop where
  total : 0 < m.total ∧ m.total ≤ 4096
  length : m.text.length ≤ MaxAssembledSize
  chunks : ∀ k < m.total, ∃ c, read (m.frames k) = some (c, m.parts k) ∧ m.IsChunk digest k c

/-- An order of all frames, with their times. -/
structure Message.Ordered (m : Message) (now : ℕ) (order : List (ℕ × ℕ)) : Prop where
  perm : (order.map Prod.snd).Perm (List.range m.total)
  later : ∀ p ∈ order, now ≤ p.1

/-- The frames in the order in which they arrive. -/
def Message.sent (m : Message) (order : List (ℕ × ℕ)) : List (ℕ × Bytes) :=
  order.map fun p => (p.1, m.frames p.2)

/-- The last frame is answered with the message, and the others with nothing. -/
def Message.answers {α : Type} (m : Message) (value : α) : List (Except String (Option α)) :=
  List.replicate (m.total - 1) (.ok none) ++ [.ok (some value)]

/-- All parts have come. -/
def Message.Complete (m : Message) (before : List (ℕ × ℕ)) : Prop :=
  ∀ k < m.total, k ∈ before.map Prod.snd

/-! ### Decoders -/

section

variable {σ α : Type} (accept : σ → ℕ → Bytes → Except String (Option α) × σ)
  (feed : σ → List (ℕ × Bytes) → List (Except String (Option α))) {m : Message}
  {order : List (ℕ × ℕ)}

/-- What the order says about a frame and the frames before it. -/
theorem Message.Ordered.split {now : ℕ} (h : m.Ordered now order) {before after : List (ℕ × ℕ)}
    {p : ℕ × ℕ} (h_split : order = before ++ p :: after) :
    p.2 < m.total ∧ p.2 ∉ before.map Prod.snd ∧ (m.Complete (before ++ [p]) ↔ after = []) := by
  have h_perm := h.perm
  rw [h_split, List.map_append, List.map_cons] at h_perm
  obtain ⟨-, h_rest, h_apart⟩ := List.nodup_append.mp (h_perm.nodup_iff.mpr List.nodup_range)
  refine ⟨?_, fun h_mem => h_apart p.2 h_mem p.2 List.mem_cons_self rfl, ?_⟩
  · exact List.mem_range.mp (h_perm.mem_iff.mp (List.mem_append_right _ List.mem_cons_self))
  unfold Message.Complete
  rw [List.map_append, List.map_singleton]
  constructor
  · intro h_all
    by_contra h_after
    obtain ⟨q, rest, rfl⟩ := List.exists_cons_of_ne_nil h_after
    have h_q : q.2 ∈ (q :: rest).map Prod.snd := List.mem_cons_self
    have h_lt := List.mem_range.mp
      (h_perm.mem_iff.mp (List.mem_append_right _ (List.mem_cons_of_mem _ h_q)))
    -- The next frame has not come yet.
    refine (List.mem_append.mp (h_all q.2 h_lt)).elim (fun h_mem => ?_) fun h_mem => ?_
    · exact h_apart q.2 h_mem q.2 (List.mem_cons_of_mem _ h_q) rfl
    · rw [List.mem_singleton] at h_mem
      rw [h_mem] at h_q
      exact (List.nodup_cons.mp h_rest).1 h_q
  · intro h_after k h_k
    have h_mem := h_perm.mem_iff.mpr (List.mem_range.mpr h_k)
    rw [h_after] at h_mem
    exact h_mem

end

/-! ### The host -/

/-- Each frame comes within a minute. -/
def Timely (order : List (ℕ × ℕ)) : Prop := order.IsChain fun a b => a.1 ≤ b.1 ∧ b.1 ≤ a.1 + minute

variable {digest}

/-- What the host has after some frames of a message. -/
structure HostHas (digest : Bytes → Vector UInt8 32) (m : Message) (now : ℕ)
    (before : List (ℕ × ℕ)) (a : Assembler) : Prop where
  first : before = [] → a.prune now m.id = none
  later : ∀ last ∈ before.getLast?, ∃ item, a m.id = some item ∧ item.updatedAt = last.1 ∧
    item.total = m.total ∧ item.sha256 = digestText digest m.text ∧
      Gathers m.parts m.total (· ∈ before.map Prod.snd) item

/-- What is not there is not there later. -/
theorem prune_eq_none {a : Assembler} {now later : ℕ} {id : String} (h_le : now ≤ later)
    (h : a.prune now id = none) : a.prune later id = none := by
  unfold Assembler.prune at h ⊢
  rw [Option.filter_eq_none_iff] at h ⊢
  intro item h_item
  have h_idle := h item h_item
  rw [decide_eq_true_eq] at h_idle ⊢
  omega

/-- The entry that the next frame finds. -/
theorem HostHas.entry {m : Message} {now : ℕ} {before after : List (ℕ × ℕ)} {p : ℕ × ℕ}
    {a : Assembler} (h : HostHas digest m now before a) (h_now : now ≤ p.1)
    (h_timely : Timely (before ++ p :: after)) {c : Chunk} (h_chunk : m.IsChunk digest p.2 c) :
    ((a.prune p.1).entry p.1 c).total = m.total ∧
      ((a.prune p.1).entry p.1 c).sha256 = digestText digest m.text ∧
      Gathers m.parts m.total (· ∈ before.map Prod.snd) ((a.prune p.1).entry p.1 c) := by
  unfold Assembler.entry
  rw [h_chunk.id]
  cases h_last : before.getLast? with
  -- the first chunk: a new entry
  | none =>
    have h_nil : before = [] := List.getLast?_eq_none_iff.mp h_last
    rw [prune_eq_none h_now (h.first h_nil), Option.getD_none, h_nil, h_chunk.total,
      Int.toNat_natCast, h_chunk.sha256]
    exact ⟨rfl, rfl, Gathers.new (fun k => List.not_mem_nil) ..⟩
  -- a later one: the entry is not too old
  | some last =>
    obtain ⟨item, h_item, h_updatedAt, h_total, h_sha256, h_gathers⟩ := h.later last h_last
    have h_kept : a.prune p.1 m.id = some item := by
      have h_gap := (List.isChain_append.mp h_timely).2.2 last h_last p rfl
      refine Option.filter_eq_some_iff.mpr ⟨h_item, ?_⟩
      rw [decide_eq_true_eq, h_updatedAt]
      omega
    rw [h_kept, Option.getD_some]
    exact ⟨h_total, h_sha256, h_gathers⟩

/-- What the next frame does. -/
theorem HostHas.step {m : Message} (h_valid : m.Valid digest partOf) (h_text : valid m.text)
    {now : ℕ} {before after : List (ℕ × ℕ)} {p : ℕ × ℕ} {a : Assembler}
    (h : HostHas digest m now before a) (h_now : now ≤ p.1)
    (h_timely : Timely (before ++ p :: after)) (h_lt : p.2 < m.total) :
    (m.Complete (before ++ [p]) ∧
        (a.accept digest p.1 (m.frames p.2)).1 = .ok (some m.text)) ∨
      (¬ m.Complete (before ++ [p]) ∧ (a.accept digest p.1 (m.frames p.2)).1 = .ok none ∧
        HostHas digest m now (before ++ [p]) (a.accept digest p.1 (m.frames p.2)).2) := by
  obtain ⟨c, h_part, h_chunk⟩ := h_valid.chunks p.2 h_lt
  obtain ⟨h_total, h_sha256, h_gathers⟩ := h.entry h_now h_timely h_chunk
  rw [(accept_of_partOf digest h_part a p.1).2.2]
  unfold Assembler.acceptPart
  generalize (a.prune p.1).entry p.1 c = item at h_total h_sha256 h_gathers ⊢
  -- the entry declares what the chunk declares
  have h_consistent : ¬ ((item.total : ℤ) ≠ c.total ∨ item.sha256 ≠ c.sha256) := by
    rw [h_total, h_sha256, h_chunk.total, h_chunk.sha256]
    exact not_or.mpr ⟨not_not.mpr rfl, not_not.mpr rfl⟩
  rw [if_neg h_consistent, h_chunk.index, Int.toNat_natCast]
  obtain ⟨h_total', h_sha256', h_updatedAt⟩ := add_declares item p.2 (m.parts p.2) p.1
  have h_seen : ∀ k, (k ∈ before.map Prod.snd ∨ k = p.2) ↔ k ∈ (before ++ [p]).map Prod.snd := by
    intro k
    rw [List.map_append, List.mem_append]
    exact or_congr_right List.mem_singleton.symm
  have h_add := (h_gathers.add h_lt (fun _ => rfl) p.1).congr (fun _ _ => rfl) h_seen
  have h_size := h_add.size_le.trans h_valid.length
  -- the chunk was the last one, or one is missing still
  refine (h_add.settle (h_total'.trans h_total) h_size digest (a.prune p.1) c).imp
    (fun h_done => ?_) fun h_open => ?_
  · refine ⟨h_done.1, ?_⟩
    rw [h_done.2.2]
    show checkResult digest c.sha256 m.text = _
    rw [checkResult, if_neg (not_not.mpr h_chunk.sha256.symm), if_neg (not_not.mpr h_text)]
  · rw [h_open.2]
    refine ⟨h_open.1, rfl, fun h_nil => ?_, fun last h_last => ?_⟩
    · exact absurd h_nil (List.append_ne_nil_of_right_ne_nil _ (List.cons_ne_nil _ _))
    · rw [List.getLast?_concat, Option.mem_some_iff] at h_last
      subst h_last
      refine ⟨_, ?_, h_updatedAt, h_total'.trans h_total, h_sha256'.trans h_sha256, h_add⟩
      rw [h_chunk.id]
      exact Function.update_self ..

section

variable (digest)

/-- A text that is cut into its bytes. -/
def sample (id : String) (text : Bytes) : Message where
  id := id
  total := totalChunks 1 text
  parts := slice 1 text
  frames := chunkFrame digest id 1 text

end

/-- The numbers that are sent as samples, in one and in two chunks. -/
def zero : Bytes := [48]

/-- The chunk that a frame is for the extension. -/
def chunkEnvelope (frame : Bytes) : Option Chunk := (jsonParse frame).bind isChunkEnvelope

/-- The index and the total of a chunk that `accept` refuses. -/
def OutOfRange (c : Chunk) : Prop :=
  c.total < 1 ∨ c.total > 4096 ∨ c.index < 0 ∨ c.index ≥ c.total
deriving Decidable

/-- A chunk that belongs to a stream, with its part. -/
def envelopePart (frame : Bytes) : Option (Chunk × Bytes) :=
  (chunkEnvelope frame).bind fun c =>
    if OutOfRange c then none else (Base64.atob c.data.toList).map fun part => (c, part)

/-- There is no live entry of the stream, and there is room for one. -/
def ChunkAssembler.Free (a : ChunkAssembler) (now : ℕ) (id : String) : Prop :=
  List.lookup id (a.prune now) = none ∧ (a.prune now).length < MAX_ASSEMBLIES

/-! What the operations do to the entry of a stream. -/

/-- What is not in a map is in no part of it. -/
theorem lookup_eq_none_of_sublist {β : Type} {l l' : List (String × β)} {id : String}
    (h : l'.Sublist l) (h_none : l.lookup id = none) : l'.lookup id = none := by
  rw [List.lookup_eq_none_iff] at h_none ⊢
  exact fun p h_p => h_none p (h.subset h_p)

/-- What is in a map and is kept. -/
theorem lookup_filter {β : Type} {l : List (String × β)} {id : String} {b : β}
    {q : String × β → Bool} (h : l.lookup id = some b) (h_q : q (id, b)) :
    (l.filter q).lookup id = some b := by
  obtain ⟨before, after, rfl, h_before⟩ := List.lookup_eq_some_iff.mp h
  rw [List.filter_append, List.filter_cons_of_pos h_q]
  exact List.lookup_eq_some_iff.mpr ⟨before.filter q, after.filter q, rfl,
    fun p h_p => h_before p (List.mem_of_mem_filter h_p)⟩

/-- What is replaced is found. -/
theorem lookup_replace {a : ChunkAssembler} {id : String} {old : ChunkAssembly}
    (h : List.lookup id a = some old) (assembly : ChunkAssembly) :
    List.lookup id (a.replace id assembly) = some assembly := by
  obtain ⟨before, after, rfl, h_before⟩ := List.lookup_eq_some_iff.mp h
  unfold ChunkAssembler.replace
  rw [List.map_append, List.map_cons, if_pos rfl]
  refine List.lookup_eq_some_iff.mpr ⟨_, _, rfl, fun p h_p => ?_⟩
  obtain ⟨entry, h_entry, rfl⟩ := List.mem_map.mp h_p
  have h_ne := bne_iff_ne.mp (h_before entry h_entry)
  rw [if_neg (Ne.symm h_ne)]
  exact h_before entry h_entry

/-- Later, fewer assemblies are left. -/
theorem prune_sublist {now later : ℕ} (h_le : now ≤ later) (a : ChunkAssembler) :
    (a.prune later).Sublist (a.prune now) := by
  refine List.monotone_filter_right a fun entry h_live => ?_
  rw [decide_eq_true_eq] at h_live ⊢
  omega

/-- The entry that a chunk makes. -/
def fresh (now : ℕ) (c : Chunk) : ChunkAssembly :=
  ⟨now, c.total.toNat, c.sha256, 0, List.replicate c.total.toNat none⟩

/-- An assembly that has begun goes on. -/
theorem open_of_some {a : ChunkAssembler} {c : Chunk} {assembly : ChunkAssembly}
    (h : List.lookup c.id a = some assembly) (now : ℕ) : a.open now c = some (assembly, a) := by
  rw [ChunkAssembler.open, h]

/-- With room an assembly begins. -/
theorem open_of_room {a : ChunkAssembler} {c : Chunk} (h : List.lookup c.id a = none)
    (h_room : a.length < MAX_ASSEMBLIES) (now : ℕ) :
    a.open now c = some (fresh now c, a ++ [(c.id, fresh now c)]) := by
  rw [ChunkAssembler.open, h]
  exact if_neg (Nat.not_le.mpr h_room)

/-- It is found. -/
theorem lookup_fresh {a : ChunkAssembler} {c : Chunk} (h : List.lookup c.id a = none) (now : ℕ) :
    List.lookup c.id (a ++ [(c.id, fresh now c)]) = some (fresh now c) := by
  rw [List.lookup_append, h, Option.none_or, List.lookup_cons, beq_self_eq_true]

/-- A chunk of a stream reaches its entry. -/
theorem accept_of_chunkEnvelope {frame : Bytes} {c : Chunk} (h : chunkEnvelope frame = some c)
    (a : ChunkAssembler) (now : ℕ) : a.accept digest now frame =
      if OutOfRange c then (.error "invalid chunk envelope", a.prune now)
      else ((a.prune now).open now c).elim
        (.error "too many incomplete chunk streams", a.prune now)
        fun opened => opened.2.acceptChunk digest opened.1 c := by
  obtain ⟨value, h_parse, h_chunk⟩ := Option.bind_eq_some_iff.mp h
  unfold ChunkAssembler.accept ChunkAssembler.acceptValue
  simp only [h_parse, h_chunk]
  -- The two checks come in the order of the source.
  by_cases h_range : OutOfRange c
  · rw [if_pos h_range]
    exact if_pos h_range
  · rw [if_neg h_range]
    refine (if_neg h_range).trans ?_
    cases h_open : (a.prune now).open now c with
    | none => rw [Option.elim_none]
    | some opened => rw [Option.elim_some]

/-- What an envelope has passed. -/
theorem envelopePart_eq_some {frame part : Bytes} {c : Chunk}
    (h : envelopePart frame = some (c, part)) :
    chunkEnvelope frame = some c ∧ ¬ OutOfRange c ∧ Base64.atob c.data.toList = some part := by
  obtain ⟨c', h_chunk, h⟩ := Option.bind_eq_some_iff.mp h
  split_ifs at h with h_range
  obtain ⟨part', h_part, h⟩ := Option.map_eq_some_iff.mp h
  cases h
  exact ⟨h_chunk, h_range, h_part⟩

/-- What the extension has after some frames of a message. -/
structure ExtensionHas (digest : Bytes → Vector UInt8 32) (m : Message) (now : ℕ)
    (before : List (ℕ × ℕ)) (a : ChunkAssembler) : Prop where
  first : before = [] → ChunkAssembler.Free a now m.id
  later : ∀ first ∈ before.head?, List.lookup m.id a =
    some (gathered m.parts m.total (digestText digest m.text) first.1 (before.map Prod.snd))

/-- The entry that the next frame finds. -/
theorem ExtensionHas.open {m : Message} {now : ℕ} {before after : List (ℕ × ℕ)} {p : ℕ × ℕ}
    {a : ChunkAssembler} (h : ExtensionHas digest m now before a) (h_now : now ≤ p.1)
    (h_prompt : Prompt ASSEMBLY_TTL_MS (before ++ p :: after)) {c : Chunk}
    (h_chunk : m.IsChunk digest p.2 c) : ∃ createdAt a',
      (∀ first ∈ (before ++ [p]).head?, first.1 = createdAt) ∧
      (a.prune p.1).open p.1 c = some (gathered m.parts m.total (digestText digest m.text) createdAt
        (before.map Prod.snd), a') ∧
      List.lookup m.id a' = some (gathered m.parts m.total (digestText digest m.text) createdAt
        (before.map Prod.snd)) := by
  have h_id := h_chunk.id
  cases before with
  -- the first chunk: there is no entry, and room for one
  | nil =>
    obtain ⟨h_none, h_room⟩ := h.first rfl
    have h_sublist := prune_sublist h_now a
    have h_none' := lookup_eq_none_of_sublist h_sublist h_none
    have h_fresh : fresh p.1 c =
        gathered m.parts m.total (digestText digest m.text) p.1
          (([] : List (ℕ × ℕ)).map Prod.snd) := by
      rw [List.map_nil, gathered_nil, fresh, h_chunk.total, Int.toNat_natCast, h_chunk.sha256]
    rw [← h_id] at h_none' ⊢
    refine ⟨p.1, a.prune p.1 ++ [(c.id, fresh p.1 c)], fun first h_first => ?_, ?_, ?_⟩
    · rw [Option.mem_some_iff.mp h_first]
    · rw [← h_fresh]
      exact open_of_room h_none' (h_sublist.length_le.trans_lt h_room) p.1
    · rw [← h_fresh]
      exact lookup_fresh h_none' p.1
  | cons first before =>
    have h_some := h.later first rfl
    -- The entry is not older than the message may be.
    have h_age : p.1 ≤ first.1 + ASSEMBLY_TTL_MS :=
      ((List.pairwise_cons.mp h_prompt).1 p (by simp)).2
    have h_live : List.lookup m.id (a.prune p.1) = _ :=
      lookup_filter h_some (decide_eq_true (Nat.not_lt.mpr h_age))
    refine ⟨first.1, a.prune p.1, fun first' h_first => ?_, ?_, h_live⟩
    · rw [Option.mem_some_iff.mp h_first]
    · rw [← h_id] at h_live
      exact open_of_some h_live p.1

/-- What the next frame does. -/
theorem ExtensionHas.step {m : Message} (h_valid : m.Valid digest envelopePart) {value : Json}
    (h_value : jsonParse m.text = some value) {now : ℕ} {before after : List (ℕ × ℕ)} {p : ℕ × ℕ}
    {a : ChunkAssembler} (h : ExtensionHas digest m now before a)
    (h_order : m.Ordered now (before ++ p :: after))
    (h_prompt : Prompt ASSEMBLY_TTL_MS (before ++ p :: after)) :
    (m.Complete (before ++ [p]) ∧
        (a.accept digest p.1 (m.frames p.2)).1 = .ok (some value)) ∨
      (¬ m.Complete (before ++ [p]) ∧ (a.accept digest p.1 (m.frames p.2)).1 = .ok none ∧
        ExtensionHas digest m now (before ++ [p]) (a.accept digest p.1 (m.frames p.2)).2) := by
  obtain ⟨h_lt, h_new, -⟩ := h_order.split rfl
  obtain ⟨c, h_part, h_chunk⟩ := h_valid.chunks p.2 h_lt
  obtain ⟨h_envelope, h_range, h_atob⟩ := envelopePart_eq_some h_part
  obtain ⟨createdAt, a', h_created, h_open, h_lookup⟩ :=
    h.open (h_order.later p (by simp)) h_prompt h_chunk
  have h_seen : before.map Prod.snd ++ [p.2] = (before ++ [p]).map Prod.snd := by
    rw [List.map_append, List.map_singleton]
  rw [← h_chunk.sha256] at h_open h_lookup
  rw [accept_of_chunkEnvelope h_envelope, if_neg h_range, h_open, Option.elim_some]
  rw [acceptChunk_gathered digest h_chunk.total h_chunk.index h_atob h_lt h_new, h_seen]
  have h_perm := h_order.perm
  rw [List.append_cons, List.map_append] at h_perm
  have h_nodup := (List.nodup_append.mp (h_perm.nodup_iff.mpr List.nodup_range)).1
  have h_places : ∀ k ∈ (before ++ [p]).map Prod.snd, k < m.total := fun k h_k =>
    List.mem_range.mp (h_perm.mem_iff.mp (List.mem_append_left _ h_k))
  -- the chunk was the last one, or one is missing still
  refine (settle_gathered digest h_nodup h_places h_valid.length a' c.id c.sha256 createdAt).imp
    (fun h_all => ?_) fun h_missing => ?_
  · refine ⟨h_all.1, ?_⟩
    rw [h_all.2, h_chunk.sha256]
    show parseJoined digest (digestText digest m.text) m.text = _
    rw [parseJoined, if_neg (not_not.mpr rfl), h_value]
  · rw [h_missing.2]
    refine ⟨h_missing.1, rfl, fun h_nil => ?_, fun first h_first => ?_⟩
    · exact absurd h_nil (List.append_ne_nil_of_right_ne_nil _ (List.cons_ne_nil _ _))
    · rw [h_created first h_first, ← h_chunk.sha256]
      show List.lookup m.id (a'.replace c.id _) = _
      rw [h_chunk.id]
      exact lookup_replace h_lookup _

end BrowserControl.NativeMessaging.Recovery
