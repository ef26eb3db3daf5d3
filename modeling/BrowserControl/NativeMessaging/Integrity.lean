import BrowserControl.NativeMessaging.Gathering
import BrowserControl.Transition.Machine

/-!
# What the host puts together

Anyone may send frames to the host: chunks of no stream, chunks twice, chunks of one stream that do
not agree, and any of them at any time. `Integrity.machine` is the `Assembler` under such frames,
and `received` remembers what has arrived of a stream since it was started: a stream starts with a
chunk for which there is no entry, be it that there never was one, or that it has been deleted or
forgotten.

`accept_integrity` says what a message that is put together is made of, and what a frame does to the
streams of others.
-/

namespace BrowserControl.NativeMessaging.Integrity

open Encoding Transition

variable (digest : Bytes → Vector UInt8 32)

/-! ### Runs -/

/-- The assembler, and the chunks of each stream with their parts. -/
structure State where
  assembler : Assembler := fun _ => none
  received : String → List (Chunk × Bytes) := fun _ => []

/-- The chunk that a frame is. -/
def chunkOf (frame : Bytes) : Option Chunk := ((parse frame).bind unmarshal).join

/-- A chunk that belongs to a stream, with its part. -/
def partOf (frame : Bytes) : Option (Chunk × Bytes) :=
  (chunkOf frame).bind fun c =>
    if c.Invalid then none else (Base64.decode c.data.toList).map fun part => (c, part)

/-- What has arrived of a stream before the chunk, unless the chunk starts it. -/
def State.before (s : State) (now : ℕ) (id : String) : List (Chunk × Bytes) :=
  if (s.assembler.prune now id).isSome then s.received id else []

/-- What has arrived of the streams after a frame. -/
def State.receive (s : State) (now : ℕ) (frame : Bytes) : String → List (Chunk × Bytes) :=
  match partOf frame with
  | some (c, part) => Function.update s.received c.id (s.before now c.id ++ [(c, part)])
  | none => s.received

/-- The host under frames of any kind, each at its time. -/
def machine : Machine State (ℕ × Bytes) where
  init := {}
  enabled _ _ := True
  next s e :=
    { assembler := (s.assembler.accept digest e.1 e.2).2
      received := s.receive e.1 e.2 }

/-! ### What is expected -/

/-- The first part that has arrived for an index. -/
def firstPart (received : List (Chunk × Bytes)) (index : ℕ) : Option Bytes :=
  (received.find? fun r => r.1.index = (index : ℤ)).map Prod.snd

/-- How many bytes are buffered. -/
def Assembly.buffered (item : Assembly) : ℕ := (item.parts.map fun p => p.2.length).sum

/-- A message is the one that the chunks of a stream declare. -/
structure Declared (received : List (Chunk × Bytes)) (c : Chunk) (result : Bytes) : Prop where
  valid : valid result = true
  length : result.length ≤ MaxAssembledSize
  /-- It is the concatenation of the first parts, in the order of their indices. -/
  parts : ((List.range c.total.toNat).mapM (firstPart received)).map List.flatten = some result
  /-- All chunks declare its digest. -/
  sha256 : ∀ r ∈ received, r.1.sha256 = digestText digest result
  nonempty : received ≠ []

/-- A stream is left as it is, or is forgotten after a minute. -/
def Spared (now : ℕ) (old new : Option Assembly) : Prop :=
  new = old ∨ new = none ∧ ∃ item, old = some item ∧ minute < now - item.updatedAt

/-- **What a frame does.** -/
structure Sound (s : State) (now : ℕ) (frame : Bytes) : Prop where
  declared : ∀ c result, chunkOf frame = some c →
    (s.assembler.accept digest now frame).1 = .ok (some result) →
    Declared digest (s.receive now frame c.id) c result
  others : ∀ id, (∀ c, chunkOf frame = some c → c.id ≠ id) →
    Spared now (s.assembler id) ((s.assembler.accept digest now frame).2 id)

/-! ### Frames -/

/-- A frame without a chunk belongs to no stream. -/
theorem accept_of_chunkOf_eq_none {frame : Bytes} (h : chunkOf frame = none) (a : Assembler)
    (now : ℕ) : (a.accept digest now frame).2 = a := by
  unfold chunkOf at h
  unfold Assembler.accept
  cases h_parse : parse frame with
  | none => rfl
  | some value =>
    rw [h_parse, Option.bind_some] at h
    cases h_chunk : unmarshal value with
    | none => simp only [h_chunk]
    | some envelope =>
      rw [h_chunk] at h
      cases envelope with
      | none => simp only [h_chunk]
      | some c => cases h

/-- A frame with a chunk. -/
theorem accept_of_chunkOf {frame : Bytes} {c : Chunk} (h : chunkOf frame = some c) (a : Assembler)
    (now : ℕ) : a.accept digest now frame =
      if c.Invalid then (.error "invalid native message chunk metadata", a)
      else (Base64.decode c.data.toList).elim (.error "decode native message chunk", a)
        fun part => (a.prune now).acceptPart digest now c part := by
  unfold chunkOf at h
  rw [Option.join_eq_some_iff] at h
  obtain ⟨value, h_parse, h_unmarshal⟩ := Option.bind_eq_some_iff.mp h
  unfold Assembler.accept
  simp only [h_parse, h_unmarshal]
  cases h_part : Base64.decode c.data.toList with
  | none => simp only [Option.elim_none]
  | some part => simp only [Option.elim_some]

/-- A frame that is a part of a stream. -/
theorem accept_of_partOf {frame part : Bytes} {c : Chunk} (h : partOf frame = some (c, part))
    (a : Assembler) (now : ℕ) : chunkOf frame = some c ∧ ¬ c.Invalid ∧
      a.accept digest now frame = (a.prune now).acceptPart digest now c part := by
  unfold partOf at h
  obtain ⟨c', h_chunk, h⟩ := Option.bind_eq_some_iff.mp h
  split_ifs at h with h_invalid
  obtain ⟨part', h_part, h⟩ := Option.map_eq_some_iff.mp h
  cases h
  refine ⟨h_chunk, h_invalid, ?_⟩
  rw [accept_of_chunkOf digest h_chunk, if_neg h_invalid, h_part, Option.elim_some]

/-- A frame that is no part of a stream changes nothing, and no message is put together. -/
theorem accept_of_partOf_eq_none {frame : Bytes} (h : partOf frame = none) (a : Assembler)
    (now : ℕ) : (a.accept digest now frame).2 = a ∧ ∀ c result, chunkOf frame = some c →
      (a.accept digest now frame).1 ≠ .ok (some result) := by
  cases h_chunk : chunkOf frame with
  | none =>
    refine ⟨accept_of_chunkOf_eq_none digest h_chunk a now, fun c result h_c => ?_⟩
    cases h_c
  | some c =>
    rw [accept_of_chunkOf digest h_chunk]
    unfold partOf at h
    rw [h_chunk, Option.bind_some] at h
    -- A chunk with bad metadata, or one whose data is no base64.
    by_cases h_invalid : c.Invalid
    · rw [if_pos h_invalid]
      exact ⟨rfl, fun _ _ _ h => by cases h⟩
    · rw [if_neg h_invalid, Option.map_eq_none_iff] at h
      rw [if_neg h_invalid, h, Option.elim_none]
      exact ⟨rfl, fun _ _ _ h => by cases h⟩

/-! ### Streams -/

/-- The entry of a stream is made of what has arrived. -/
structure Tracks (received : List (Chunk × Bytes)) (item : Assembly) : Prop where
  uniform : ∀ r ∈ received, r.1.total = item.total ∧ r.1.sha256 = item.sha256
  gathers : Gathers (fun k => (firstPart received k).getD []) item.total
    (fun k => (firstPart received k).isSome) item

theorem firstPart_append (received : List (Chunk × Bytes)) (c : Chunk) (part : Bytes) (k : ℕ) :
    firstPart (received ++ [(c, part)]) k =
      (firstPart received k).or (if c.index = (k : ℤ) then some part else none) := by
  unfold firstPart
  rw [List.find?_append, Option.map_or]
  congr 1
  by_cases h : c.index = k
  · simp [h]
  · simp [h]

/-- A part is put into its stream, if it is the first for its index. -/
theorem Tracks.add {received : List (Chunk × Bytes)} {item : Assembly} (h : Tracks received item)
    {c : Chunk} (h_total : c.total = item.total) (h_sha256 : c.sha256 = item.sha256)
    (h_index : 0 ≤ c.index) (h_lt : c.index < c.total) (part : Bytes) (now : ℕ) :
    Tracks (received ++ [(c, part)]) (item.add c.index.toNat part now) := by
  have h_toNat : (c.index.toNat : ℤ) = c.index := Int.toNat_of_nonneg h_index
  have h_k : c.index.toNat < item.total := by omega
  obtain ⟨h_total', h_sha256', -⟩ := add_declares item c.index.toNat part now
  refine ⟨fun r h_r => ?_, ?_⟩
  · rw [h_total', h_sha256']
    refine (List.mem_append.mp h_r).elim (h.uniform r) fun h_r => ?_
    rw [List.mem_singleton.mp h_r]
    exact ⟨h_total, h_sha256⟩
  · -- What was seen first is still the first.
    have h_old : ∀ k, (firstPart received k).isSome →
        (firstPart received k).getD [] = (firstPart (received ++ [(c, part)]) k).getD [] := by
      intro k h_k
      obtain ⟨p, h_p⟩ := Option.isSome_iff_exists.mp h_k
      rw [firstPart_append, h_p, Option.some_or]
    -- and a part that is new is the first at its index
    have h_new : ¬ (firstPart received c.index.toNat).isSome →
        part = (firstPart (received ++ [(c, part)]) c.index.toNat).getD [] := by
      intro h_none
      rw [firstPart_append, Option.not_isSome_iff_eq_none.mp h_none, Option.none_or,
        if_pos h_toNat.symm, Option.getD_some]
    rw [h_total']
    refine Gathers.congr (Gathers.add (h.gathers.congr h_old fun _ => Iff.rfl) h_k h_new now)
      (fun _ _ => rfl) fun k => ?_
    rw [firstPart_append, Option.isSome_or, Bool.or_eq_true]
    refine or_congr_right ?_
    split_ifs with h_eq
    · exact iff_of_true (by omega) rfl
    · exact iff_of_false (by omega) Bool.false_ne_true

/-- What comes of a stream that is made of what has arrived, the chunk included. -/
theorem settle_of_tracks {received : List (Chunk × Bytes)} {item : Assembly} {c : Chunk}
    (h : Tracks received item) (h_total : c.total = item.total) (h_sha256 : c.sha256 = item.sha256)
    (h_received : received ≠ []) (a : Assembler) :
    (∀ result, (a.settle digest c item).1 = .ok (some result) →
      Declared digest received c result) ∧
    ∃ new, (a.settle digest c item).2 = Function.update a c.id new ∧
      ∀ item', new = some item' → Tracks received item' ∧ item'.size ≤ MaxAssembledSize := by
  -- an entry over the limit is dropped with an error
  by_cases h_size : item.size > MaxAssembledSize
  · rw [Assembler.settle, if_pos h_size]
    exact ⟨fun _ h_result => (by cases h_result), none, rfl, fun _ h_new => by cases h_new⟩
  have h_le : item.size ≤ MaxAssembledSize := Nat.le_of_not_gt h_size
  rcases h.gathers.settle rfl h_le digest a c with
    ⟨h_all, h_length, h_settle⟩ | ⟨-, h_settle⟩
  · -- All parts are there, and each of them is the first.
    have h_first : ((List.range c.total.toNat).mapM (firstPart received)).map List.flatten =
        some ((List.range item.total).flatMap fun k => (firstPart received k).getD []) := by
      have h_toNat : c.total.toNat = item.total := by rw [h_total, Int.toNat_natCast]
      rw [h_toNat, mapM_eq_some fun k h_k => ?_]
      · rfl
      · obtain ⟨part, h_part⟩ := Option.isSome_iff_exists.mp (h_all k (List.mem_range.mp h_k))
        rw [h_part, Option.getD_some]
    rw [h_settle]
    refine ⟨fun result h_result => ?_, none, rfl, fun _ h_new => by cases h_new⟩
    change checkResult digest c.sha256 ((List.range item.total).flatMap _) = _ at h_result
    unfold checkResult at h_result
    split_ifs at h_result with h_digest h_valid
    cases h_result
    refine ⟨h_valid, h_length.symm.trans_le h_le, h_first, fun r h_r => ?_, h_received⟩
    calc r.1.sha256 = item.sha256 := (h.uniform r h_r).2
      _ = c.sha256 := h_sha256.symm
      _ = digestText digest _ := (not_not.mp h_digest).symm
  · rw [h_settle]
    refine ⟨fun _ h_result => (by cases h_result), some item, rfl, fun item' h_new => ?_⟩
    cases h_new
    exact ⟨h, h_le⟩

/-- **What a part does** to its stream, which is made of what has arrived. -/
theorem acceptPart_of_tracks {received : List (Chunk × Bytes)} {a : Assembler} {now : ℕ} {c : Chunk}
    (h : Tracks received (a.entry now c)) (h_index : 0 ≤ c.index) (h_lt : c.index < c.total)
    (part : Bytes) :
    (∀ result, (a.acceptPart digest now c part).1 = .ok (some result) →
      Declared digest (received ++ [(c, part)]) c result) ∧
    ∃ new, (a.acceptPart digest now c part).2 = Function.update a c.id new ∧
      ∀ item', new = some item' →
        Tracks (received ++ [(c, part)]) item' ∧ item'.size ≤ MaxAssembledSize := by
  unfold Assembler.acceptPart
  by_cases h_ne : ((a.entry now c).total : ℤ) ≠ c.total ∨ (a.entry now c).sha256 ≠ c.sha256
  -- the chunk disagrees with its entry, which is dropped
  · rw [if_pos h_ne]
    exact ⟨fun _ h_result => (by cases h_result), none, rfl, fun _ h_new => by cases h_new⟩
  · rw [if_neg h_ne]
    obtain ⟨h_total, h_sha256⟩ := not_or.mp h_ne
    -- it agrees, and its part is added
    have h_add := h.add (not_not.mp h_total).symm (not_not.mp h_sha256).symm h_index h_lt part now
    obtain ⟨h_total', h_sha256', -⟩ := add_declares (a.entry now c) c.index.toNat part now
    refine settle_of_tracks digest h_add ?_ ?_
      (List.append_ne_nil_of_right_ne_nil _ (List.cons_ne_nil _ _)) a
    · rw [h_total']
      exact (not_not.mp h_total).symm
    · rw [h_sha256']
      exact (not_not.mp h_sha256).symm

/-! ### Runs -/

/-- Every entry is made of what has arrived, and is not too large. -/
def State.Inv (s : State) : Prop :=
  ∀ id item, s.assembler id = some item →
    Tracks (s.received id) item ∧ item.size ≤ MaxAssembledSize

/-- What is left was there. -/
theorem prune_eq_some {a : Assembler} {now : ℕ} {id : String} {item : Assembly}
    (h : a.prune now id = some item) : a id = some item := (Option.filter_eq_some_iff.mp h).1

/-- A stream is pruned only after a minute. -/
theorem spared_prune (a : Assembler) (now : ℕ) (id : String) :
    Spared now (a id) (a.prune now id) := by
  unfold Assembler.prune
  cases h : a id with
  | none => exact .inl rfl
  | some item =>
    by_cases h_idle : now - item.updatedAt ≤ minute
    · exact .inl (Option.filter_some_pos (by simpa using h_idle))
    · exact .inr ⟨Option.filter_some_neg (by simpa using h_idle), item, rfl,
        Nat.lt_of_not_le h_idle⟩

/-- The entry that a chunk finds is made of what has arrived before it. -/
theorem State.Inv.entry {s : State} (h : s.Inv) (now : ℕ) (c : Chunk) :
    Tracks (s.before now c.id) ((s.assembler.prune now).entry now c) := by
  unfold State.before Assembler.entry
  cases h_item : s.assembler.prune now c.id with
  | none =>
    exact ⟨List.forall_mem_nil _, Gathers.new (fun _ => Bool.false_ne_true) ..⟩
  | some item =>
    rw [if_pos Option.isSome_some, Option.getD_some]
    exact (h c.id item (prune_eq_some h_item)).1

/-- **What a frame does.** -/
theorem State.Inv.frame {s : State} (h : s.Inv) (now : ℕ) (frame : Bytes) :
    Sound digest s now frame ∧ ((machine digest).next s (now, frame)).Inv := by
  cases h_part : partOf frame with
  -- no part of a chunk: the table keeps its entries
  | none =>
    obtain ⟨h_same, h_result⟩ := accept_of_partOf_eq_none digest h_part s.assembler now
    refine ⟨⟨fun c result h_c h_ok => absurd h_ok (h_result c result h_c), fun id _ => ?_⟩, ?_⟩
    · rw [h_same]
      exact .inl rfl
    · intro id item h_item
      have h_received : s.receive now frame = s.received := by
        rw [State.receive, h_part]
      change (s.assembler.accept digest now frame).2 id = some item at h_item
      show Tracks (s.receive now frame id) item ∧ _
      rw [h_same] at h_item
      rw [h_received]
      exact h id item h_item
  -- a part: only the entry of its stream changes
  | some r =>
    obtain ⟨c, part⟩ := r
    obtain ⟨h_chunk, h_valid, h_accept⟩ :=
      accept_of_partOf digest h_part s.assembler now
    have h_index : 0 ≤ c.index ∧ c.index < c.total := by
      unfold Chunk.Invalid at h_valid
      omega
    obtain ⟨h_declared, new, h_new, h_tracks⟩ := acceptPart_of_tracks digest
      (h.entry now c) h_index.1 h_index.2 part
    have h_received : s.receive now frame =
        Function.update s.received c.id (s.before now c.id ++ [(c, part)]) := by
      rw [State.receive, h_part]
    refine ⟨⟨fun c' result h_c h_ok => ?_, fun id h_id => ?_⟩, fun id item h_item => ?_⟩
    · rw [h_chunk] at h_c
      cases h_c
      rw [h_received, Function.update_self]
      rw [h_accept] at h_ok
      exact h_declared result h_ok
    · rw [h_accept, h_new, Function.update_of_ne (h_id c h_chunk).symm]
      exact spared_prune ..
    · change (s.assembler.accept digest now frame).2 id = some item at h_item
      show Tracks (s.receive now frame id) item ∧ _
      rw [h_accept, h_new] at h_item
      rw [h_received]
      by_cases h_id : id = c.id
      · subst h_id
        rw [Function.update_self] at h_item ⊢
        exact h_tracks item h_item
      · rw [Function.update_of_ne h_id] at h_item ⊢
        exact h id item (prune_eq_some h_item)

/-- The invariant holds in every run. -/
theorem inv_exec (frames : List (ℕ × Bytes)) :
    ((machine digest).exec (machine digest).init frames).Inv := by
  have h_runs : (machine digest).Runs (machine digest).init frames := by
    generalize (machine digest).init = s
    induction frames generalizing s with
    | nil => trivial
    | cons e frames ih => exact ⟨trivial, ih _⟩
  refine h_runs.history (P := fun _ s => s.Inv) ?_ ?_
  · intro id item h_item
    cases h_item
  · intro _ s e _ _ h_inv _
    exact (h_inv.frame digest e.1 e.2).2

/-- **The host puts together what has been declared, and keeps streams apart.** For all frames
that have come and every frame that comes next: a message that it completes is the concatenation of
the first parts of its stream, with the digest that all chunks declare; other streams stay as they
are, unless they have been idle for a minute. And no stream has more bytes than a message may
have. -/
theorem accept_integrity (frames : List (ℕ × Bytes)) :
    (∀ now frame, Sound digest ((machine digest).exec (machine digest).init frames) now frame) ∧
    ∀ id item, ((machine digest).exec (machine digest).init frames).assembler id = some item →
      Assembly.buffered item ≤ MaxAssembledSize := by
  refine ⟨fun now frame => ((inv_exec digest frames).frame digest now frame).1,
    fun id item h_item => ?_⟩
  obtain ⟨h_tracks, h_size⟩ := inv_exec digest frames id item h_item
  exact h_tracks.gathers.size.symm.trans_le h_size

end BrowserControl.NativeMessaging.Integrity
