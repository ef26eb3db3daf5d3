import BrowserControl.NativeMessaging.Transport

/-!
# What the encoder of the host emits can be decoded

`encode` has no limit for the number of chunks and for the length of a message, and both
assemblers have one. `encode_decodes_iff` says for which messages its frames can be put together
again: those that need no chunks, and those that keep to the limits of the assemblers. The sizes of
the chunks count there as well: a small size makes too many chunks of a message that is not long.

For the host's assembler the result is the one about interleaved messages, for a single message.
The extension's assembler is followed here, through the frames of one message.
-/

namespace BrowserControl.NativeMessaging

open Encoding

variable {digest : Bytes → Vector UInt8 32}

/-! ### The extension -/

/-- The parts of a message that have been seen. -/
def Sent.parts (m : Sent) (seen : List ℕ) : List (Option Bytes) :=
  (List.range m.total).map fun j => if j ∈ seen then some (slice m.size m.text j) else none

/-- The entry of the extension's assembler for a message, of which these chunks have been seen. -/
def Sent.assembly (m : Sent) (digest : Bytes → Vector UInt8 32) (createdAt : ℕ) (seen : List ℕ) :
    ChunkAssembly where
  createdAt := createdAt
  total := m.total
  sha256 := digestText digest m.text
  size := (seen.map fun j => (slice m.size m.text j).length).sum
  chunks := m.parts seen

/-- The state of the extension's assembler. -/
def Sent.state (m : Sent) (digest : Bytes → Vector UInt8 32) (createdAt : ℕ) :
    List ℕ → ChunkAssembler
  | [] => []
  | k :: seen => [(m.id, m.assembly digest createdAt (k :: seen))]

/-- What is gathered of a message that arrives in slices. -/
theorem assembly_eq (m : Sent) (createdAt : ℕ) (seen : List ℕ) :
    m.assembly digest createdAt seen =
      gathered (slice m.size m.text) m.total (digestText digest m.text) createdAt seen := rfl

/-- The value of a message. -/
theorem parseJoined_envelope {text : Bytes} (h : Envelope text) :
    ∃ v, jsonParse text = some v ∧ isChunkEnvelope v = none ∧
      parseJoined digest (digestText digest text) text = .ok (some v) := by
  obtain ⟨fields, h_parse, h_fields⟩ := h
  have h_json := jsonParse_of_parse h_parse
  refine ⟨_, h_json, ?_, ?_⟩
  · -- No member has the name of an envelope's.
    have h_none : property fields "__bc_chunk" = none := by
      rw [property, Option.map_eq_none_iff, List.find?_eq_none]
      intro field h_field
      have h_ne := h_fields field (List.mem_reverse.mp h_field)
      rw [decide_eq_true_eq]
      intro h_eq
      exact h_ne (congrArg foldName h_eq)
    rw [isChunkEnvelope, h_none]
  · rw [parseJoined, if_neg (not_not.mpr rfl), h_json]

/-- What comes of an assembly with the chunks that have been seen. -/
theorem settle_assembly {m : Sent} (h_fits : m.Fits) {createdAt : ℕ} {seen : List ℕ}
    (h_nodup : seen.Nodup) (h_lt : ∀ j ∈ seen, j < m.total) {old : ChunkAssembly} :
    ((∀ j < m.total, j ∈ seen) ∧
        ChunkAssembler.settle digest [(m.id, old)] m.id (m.assembly digest createdAt seen) =
          (.ok (jsonParse m.text), [])) ∨
      (¬ (∀ j < m.total, j ∈ seen) ∧
        ChunkAssembler.settle digest [(m.id, old)] m.id (m.assembly digest createdAt seen) =
          (.ok none, [(m.id, m.assembly digest createdAt seen)])) := by
  obtain ⟨v, h_json, -, h_joined⟩ := @parseJoined_envelope digest _ h_fits.envelope
  -- The slices together are the text.
  have h_text : (List.range m.total).flatMap (slice m.size m.text) = m.text :=
    flatMap_slice_totalChunks h_fits.size_pos m.text
  rcases settle_gathered digest h_nodup h_lt (h_text.symm ▸ h_fits.length) [(m.id, old)] m.id
    (digestText digest m.text) createdAt with ⟨h_all, h_settle⟩ | ⟨h_missing, h_settle⟩
  · refine .inl ⟨h_all, h_settle.trans ?_⟩
    rw [h_text, h_joined, h_json]
    simp [ChunkAssembler.delete]
  · refine .inr ⟨h_missing, h_settle.trans ?_⟩
    simp [ChunkAssembler.replace, assembly_eq]

/-- A chunk that has not been seen, and its assembly. -/
theorem acceptChunk_assembly {m : Sent} (h_fits : m.Fits) {createdAt : ℕ} {seen : List ℕ} {k : ℕ}
    (h_nodup : (seen ++ [k]).Nodup) (h_lt : ∀ j ∈ seen ++ [k], j < m.total) :
    ((∀ j < m.total, j ∈ seen ++ [k]) ∧
        ChunkAssembler.acceptChunk digest [(m.id, m.assembly digest createdAt seen)]
          (m.assembly digest createdAt seen) (m.chunk digest k) = (.ok (jsonParse m.text), [])) ∨
      (¬ (∀ j < m.total, j ∈ seen ++ [k]) ∧
        ChunkAssembler.acceptChunk digest [(m.id, m.assembly digest createdAt seen)]
          (m.assembly digest createdAt seen) (m.chunk digest k) =
            (.ok none, [(m.id, m.assembly digest createdAt (seen ++ [k]))])) := by
  have h_k : k < m.total := h_lt k (by simp)
  -- the chunk comes for the first time
  have h_new : k ∉ seen := by
    intro h_mem
    exact (List.nodup_append.mp h_nodup).2.2 k h_mem k (List.mem_singleton_self k) rfl
  have h_atob : Base64.atob (m.chunk digest k).data.toList = some (slice m.size m.text k) := by
    show Base64.atob (String.ofList _).toList = _
    rw [String.toList_ofList, Base64.atob_encode]
  have h_accept := acceptChunk_gathered digest rfl rfl h_atob h_k h_new
    [(m.id, m.assembly digest createdAt seen)] createdAt
  have h_settle := @settle_assembly digest m h_fits createdAt _ h_nodup h_lt
    (m.assembly digest createdAt seen)
  exact h_settle.imp (fun h_all => ⟨h_all.1, h_accept.trans h_all.2⟩)
    fun h_missing => ⟨h_missing.1, h_accept.trans h_missing.2⟩

/-- **One frame.** A frame of a stream that has not been seen. -/
theorem accept_state {m : Sent} (h_fits : m.Fits) (h_total : m.total ≤ 4096) {createdAt now : ℕ}
    {seen : List ℕ} {k : ℕ} (h_nodup : (seen ++ [k]).Nodup) (h_lt : ∀ j ∈ seen ++ [k], j < m.total)
    (h_now : now ≤ createdAt + ASSEMBLY_TTL_MS) (h_first : seen = [] → now = createdAt) :
    ((∀ j < m.total, j ∈ seen ++ [k]) ∧
        (m.state digest createdAt seen).accept digest now
          (chunkFrame digest m.id m.size m.text k) = (.ok (jsonParse m.text), [])) ∨
      (¬ (∀ j < m.total, j ∈ seen ++ [k]) ∧
        (m.state digest createdAt seen).accept digest now
          (chunkFrame digest m.id m.size m.text k) =
            (.ok none, m.state digest createdAt (seen ++ [k]))) := by
  have h_k : k < m.total := h_lt k (by simp)
  have h_envelope : isChunkEnvelope (chunkJson m.id k m.total (digestText digest m.text)
      (String.ofList (Base64.encode (slice m.size m.text k)))) = some (m.chunk digest k) :=
    isChunkEnvelope_chunkJson _ _ (by omega) (by omega) (isSha256_digestText digest m.text)
  have h_valid : ¬ ((m.chunk digest k).total < 1 ∨ (m.chunk digest k).total > 4096 ∨
      (m.chunk digest k).index < 0 ∨ (m.chunk digest k).index ≥ (m.chunk digest k).total) := by
    simp only [Sent.chunk]
    omega
  -- no entry is too old
  have h_prune : (m.state digest createdAt seen).prune now = m.state digest createdAt seen := by
    refine List.filter_eq_self.mpr fun entry h_entry => decide_eq_true ?_
    cases seen with
    | nil => cases h_entry
    | cons j seen =>
      rw [List.mem_singleton.mp h_entry]
      show ¬ createdAt + ASSEMBLY_TTL_MS < now
      omega
  -- the first chunk opens the entry, a later one finds it
  have h_open : (m.state digest createdAt seen).open now (m.chunk digest k) =
      some (m.assembly digest createdAt seen, [(m.id, m.assembly digest createdAt seen)]) := by
    cases seen with
    | nil =>
      rw [assembly_eq, gathered_nil, ← h_first rfl]
      rfl
    | cons j seen =>
      have h_lookup : List.lookup m.id [(m.id, m.assembly digest createdAt (j :: seen))] =
          some (m.assembly digest createdAt (j :: seen)) := by
        rw [List.lookup_cons, beq_self_eq_true]
      have h_id : (m.chunk digest k).id = m.id := rfl
      have h_some : m.state digest createdAt (j :: seen) =
          [(m.id, m.assembly digest createdAt (j :: seen))] := rfl
      rw [h_some, ChunkAssembler.open, h_id, h_lookup]
  have h_state : m.state digest createdAt (seen ++ [k]) =
      [(m.id, m.assembly digest createdAt (seen ++ [k]))] := by
    cases seen with
    | nil => rfl
    | cons j seen => rfl
  rw [h_state, ChunkAssembler.accept, chunkFrame, jsonParse_marshal]
  dsimp only
  rw [ChunkAssembler.acceptValue, h_prune]
  have h_chunks : totalChunks m.size m.text = m.total := rfl
  rw [h_chunks, h_envelope]
  dsimp only
  rw [if_neg h_valid, h_open]
  -- what is left is the step of the entry itself
  exact acceptChunk_assembly h_fits h_nodup h_lt

/-- The frames of a message, in the order in which they come and with their times. -/
def Sent.ordered (m : Sent) (digest : Bytes → Vector UInt8 32) (order : List (ℕ × ℕ)) :
    List (ℕ × Bytes) := order.map fun p => (p.1, (m.frames digest).getD p.2 [])

/-- The frames of a message in slices. -/
theorem getD_frames {m : Sent} (h_chunked : m.Chunked) {k : ℕ} (h_k : k < m.total) :
    (m.frames digest).getD k [] = chunkFrame digest m.id m.size m.text k := by
  rw [Sent.frames, if_pos h_chunked, List.getD_eq_getElem?_getD, List.getElem?_map,
    List.getElem?_range h_k]
  rfl

/-- The frames of a stream that are still to come. -/
theorem feed_state {m : Sent} (h_fits : m.Fits) (h_chunked : m.Chunked) {createdAt : ℕ}
    {rest : List (ℕ × ℕ)} (h_rest : rest ≠ []) {seen : List ℕ}
    (h_perm : (seen ++ rest.map Prod.snd).Perm (List.range m.total))
    (h_time : ∀ p ∈ rest, p.1 ≤ createdAt + ASSEMBLY_TTL_MS)
    (h_first : seen = [] → ∀ p ∈ rest.head?, p.1 = createdAt) :
    (m.state digest createdAt seen).feed digest (m.ordered digest rest) =
      List.replicate (rest.length - 1) (.ok none) ++ [.ok (jsonParse m.text)] := by
  induction rest generalizing seen with
  | nil => exact absurd rfl h_rest
  | cons p rest ih =>
    rw [List.map_cons, List.append_cons] at h_perm
    have h_nodup := List.nodup_append.mp (h_perm.nodup_iff.mpr List.nodup_range)
    have h_lt : ∀ j ∈ seen ++ [p.2], j < m.total := fun j h_j =>
      List.mem_range.mp (h_perm.mem_iff.mp (List.mem_append_left _ h_j))
    have h_frame : m.ordered digest (p :: rest) =
        (p.1, chunkFrame digest m.id m.size m.text p.2) :: m.ordered digest rest := by
      rw [Sent.ordered, List.map_cons, getD_frames h_chunked (h_lt p.2 (by simp))]
      rfl
    rw [h_frame, ChunkAssembler.feed]
    dsimp only
    have h_step := @accept_state digest m h_fits (h_fits.total h_chunked) _ p.1 _ _
      h_nodup.1 h_lt (h_time p List.mem_cons_self) fun h_nil => h_first h_nil p rfl
    cases rest with
    | nil =>
      -- The last frame completes the message.
      have h_all : ∀ j < m.total, j ∈ seen ++ [p.2] := by
        intro j h_j
        have h_mem := h_perm.mem_iff.mpr (List.mem_range.mpr h_j)
        rwa [List.map_nil, List.append_nil] at h_mem
      rcases h_step with ⟨-, h_accept⟩ | ⟨h_not, -⟩
      · rw [h_accept]
        rfl
      · exact absurd h_all h_not
    -- after it the entry holds one chunk more
    | cons q rest =>
      have h_missing : ¬ ∀ j < m.total, j ∈ seen ++ [p.2] := by
        intro h_all
        have h_q : q.2 ∈ (q :: rest).map Prod.snd := by simp
        have h_q_lt := List.mem_range.mp (h_perm.mem_iff.mp (List.mem_append_right _ h_q))
        exact h_nodup.2.2 q.2 (h_all q.2 h_q_lt) q.2 h_q rfl
      rcases h_step with ⟨h_all, -⟩ | ⟨-, h_accept⟩
      · exact absurd h_all h_missing
      · have h_rest := ih (by simp) h_perm
          (fun r h_r => h_time r (List.mem_cons_of_mem p h_r)) (by simp)
        rw [h_accept]
        show Except.ok none :: ChunkAssembler.feed digest _ _ = _
        rw [h_rest]
        rfl

/-! ### The host -/

/-- Each frame has an answer. -/
theorem length_feed (a : Assembler) (l : List (ℕ × Bytes)) :
    (a.feed digest l).length = l.length := by
  induction l generalizing a with
  | nil => rfl
  | cons frame l ih => rw [Assembler.feed, List.length_cons, ih, List.length_cons]

/-- The frames of one message through the host's assembler. -/
theorem feed_single {m : Sent} (h_fits : m.Fits) {order : List (ℕ × ℕ)}
    (h_perm : (order.map Prod.snd).Perm (List.range (m.frames digest).length))
    (h_prompt : Prompt minute order) :
    Assembler.feed digest (fun _ => none) (m.ordered digest order) =
      List.replicate ((m.frames digest).length - 1) (.ok none) ++ [.ok (some m.text)] := by
  have h_inter := interleaving_of_perm h_perm h_prompt
  have h_length : order.length = (m.frames digest).length := by
    have h_eq := h_perm.length_eq
    rwa [List.length_map, List.length_range] at h_eq
  have h_pos := m.length_frames_pos digest h_fits.size_pos
  have h_wire : m.ordered digest order = (order.map arrival).map
      (wire fun _ => m.frames digest) := by
    rw [List.map_map]
    rfl
  apply List.ext_getElem?
  intro i
  by_cases h_i : i < order.length
  · have h_split := map_split arrival h_i
    obtain ⟨answer, h_answer, h_yes, h_no⟩ :=
      feed_of_tracks (fun _ _ _ => rfl) (fun _ => h_fits) h_inter
      (List.nil_append _).symm Tracks.nil h_split
    rw [List.length_map, List.length_take_of_le h_i.le] at h_answer
    rw [h_wire, h_answer]
    by_cases h_last : i = (m.frames digest).length - 1
    · -- This is the last frame.
      have h_complete : Complete (fun _ : Unit => m.frames digest)
          ([] ++ (order.take i).map arrival ++ [arrival order[i]]) () := by
        have h_drop : order.drop (i + 1) = [] := List.drop_eq_nil_of_le (by omega)
        rw [h_drop, List.map_nil] at h_split
        rw [List.nil_append, ← h_split]
        exact h_inter.all ()
      rw [h_yes h_complete, List.getElem?_append_right (by simp [h_last]), List.length_replicate,
        h_last, Nat.sub_self]
      rfl
    · -- There is a frame that comes next.
      have h_next : i + 1 < order.length := by omega
      have h_incomplete : ¬ Complete (fun _ : Unit => m.frames digest)
          ([] ++ (order.take i).map arrival ++ [arrival order[i]]) () := by
        refine @Interleaving.incomplete _ _ _ h_inter _ (arrival order[i + 1])
          ((order.drop (i + 2)).map arrival) ?_
        have h_take : (order.take (i + 1)).map arrival =
            (order.take i).map arrival ++ [arrival order[i]] := by
          rw [List.take_succ_eq_append_getElem h_i, List.map_append, List.map_singleton]
        rw [map_split arrival h_next, h_take, List.nil_append]
      rw [h_no h_incomplete, List.getElem?_append_left (by simp; omega),
        List.getElem?_replicate_of_lt (by omega)]
  -- past the end neither list has an answer
  · rw [List.getElem?_eq_none, List.getElem?_eq_none]
    · simp
      omega
    · rw [length_feed, Sent.ordered, List.length_map]
      omega

/-! ### What is not decoded -/

/-- The first frame with a number of chunks that is too great is refused. -/
theorem accept_invalid {m : Sent} (h_total : 4096 < m.total) (a : Assembler) (now : ℕ) :
    ∃ e, (a.accept digest now (chunkFrame digest m.id m.size m.text 0)).1 = .error e := by
  -- a total beyond 63 bits does not even decode
  have h_unmarshal (data : String) :
      unmarshal (chunkJson m.id 0 m.total (digestText digest m.text) data) = none ∨
      ∃ c : Chunk, unmarshal (chunkJson m.id 0 m.total (digestText digest m.text) data) =
        some (some c) ∧ c.total = m.total := by
    by_cases h_int : m.total < 2 ^ 63
    · exact .inr ⟨_, unmarshal_chunkJson m.id (digestText digest m.text) data (by decide)
        h_int, rfl⟩
    · exact .inl (unmarshal_chunkJson_of_overflow m.id (digestText digest m.text) data (by decide)
        (Nat.not_lt.mp h_int))
  rw [Assembler.accept, chunkFrame, parse_marshal]
  dsimp only
  rcases h_unmarshal (String.ofList (Base64.encode (slice m.size m.text 0))) with
    h_none | ⟨c, h_some, h_c⟩
  · rw [Sent.total] at h_none
    rw [h_none]
    exact ⟨_, rfl⟩
  · rw [Sent.total] at h_some
    have h_invalid : c.Invalid := by
      refine .inr (.inr (.inr (.inl ?_)))
      omega
    rw [h_some]
    dsimp only
    rw [if_pos h_invalid]
    exact ⟨_, rfl⟩

/-- A stream that is too long is refused, or it waits for more. -/
theorem settle_too_long {m : Sent} (h_size : 0 < m.size) (h_long : MaxAssembledSize < m.text.length)
    {seen : ℕ → Prop} {item : Assembly} (h : Holds digest m seen item) (a : Assembler) (k : ℕ) :
    (∃ e, (a.settle digest (m.chunk digest k) item).1 = .error e) ∨
      (¬ (∀ j < m.total, seen j) ∧ a.settle digest (m.chunk digest k) item =
        (.ok none, Function.update a m.id (some item))) := by
  unfold Assembler.settle
  by_cases h_item : item.size > MaxAssembledSize
  · rw [if_pos h_item]
    exact .inl ⟨_, rfl⟩
  -- below the limit something is missing, since the whole is above it
  · have h_missing : ¬ ∀ j < m.total, seen j := by
      intro h_all
      have h_sum := h.parts.sum_length_eq fun j h_j => (h.seen j).mpr (h_all j h_j)
      rw [Sent.total, flatMap_slice_totalChunks h_size, ← h.size] at h_sum
      omega
    have h_length : item.parts.length ≠ item.total := by
      rw [h.total]
      intro h_eq
      exact h_missing fun j h_j => (h.seen j).mp (h.parts.length_eq_iff.mp h_eq j h_j)
    rw [if_neg h_item, if_pos h_length]
    exact .inr ⟨h_missing, rfl⟩

/-- Somewhere in the rest of a stream that is too long there is an error. -/
theorem feed_too_long {m : Sent} (h_id : m.id ≠ "") (h_size : 0 < m.size) (h_total : m.total ≤ 4096)
    (h_long : MaxAssembledSize < m.text.length) (now : ℕ) {a : Assembler} {seen rest : List ℕ}
    (h_perm : (seen ++ rest).Perm (List.range m.total)) (h_rest : rest ≠ [])
    (h_prune : a.prune now = a)
    (h_holds : ∀ k, Holds digest m (· ∈ seen) (a.entry now (m.chunk digest k))) :
    ∃ e, .error e ∈ a.feed digest
      (rest.map fun k => (now, chunkFrame digest m.id m.size m.text k)) := by
  induction rest generalizing a seen with
  | nil => exact absurd rfl h_rest
  | cons k rest ih =>
    have h_k : k < m.total :=
      List.mem_range.mp (h_perm.mem_iff.mp (List.mem_append_right seen List.mem_cons_self))
    obtain ⟨h_add, h_updatedAt⟩ := (h_holds k).add h_k now
    have h_consistent : ¬ (((a.entry now (m.chunk digest k)).total : ℤ) ≠ (m.chunk digest k).total ∨
        (a.entry now (m.chunk digest k)).sha256 ≠ (m.chunk digest k).sha256) := by
      rw [(h_holds k).total, (h_holds k).sha256]
      simp [Sent.chunk]
    have h_accept : a.accept digest now (chunkFrame digest m.id m.size m.text k) =
        a.settle digest (m.chunk digest k)
          ((a.entry now (m.chunk digest k)).add k (slice m.size m.text k) now) := by
      rw [accept_chunkFrame digest h_id h_total h_k, h_prune, Assembler.acceptPart,
        if_neg h_consistent]
      rfl
    rw [List.map_cons, Assembler.feed]
    dsimp only
    rw [h_accept]
    -- the size is refused now, or a chunk is missing still
    rcases settle_too_long h_size h_long h_add a k with ⟨e, h_error⟩ | ⟨h_missing, h_settle⟩
    · exact ⟨e, h_error ▸ List.mem_cons_self⟩
    · rw [h_settle]
      generalize (a.entry now (m.chunk digest k)).add k (slice m.size m.text k) now = item at *
      rw [List.append_cons] at h_perm
      -- The stream goes on with one more chunk.
      have h_seen (j : ℕ) : (j ∈ seen ∨ j = k) = (j ∈ seen ++ [k]) := by simp
      obtain ⟨e, h_error⟩ := ih
        (a := Function.update a m.id (some item)) h_perm
        (by
          rintro rfl
          apply h_missing
          intro j h_j
          rw [h_seen]
          have h_mem := h_perm.mem_iff.mpr (List.mem_range.mpr h_j)
          rwa [List.append_nil] at h_mem)
        (by
          funext id
          unfold Assembler.prune
          by_cases h_eq : id = m.id
          · subst h_eq
            rw [Function.update_self]
            refine Option.filter_eq_some_iff.mpr ⟨rfl, decide_eq_true ?_⟩
            omega
          · rw [Function.update_of_ne h_eq]
            exact congrFun h_prune id)
        (by
          intro j
          unfold Assembler.entry
          show Holds _ _ _ ((Function.update a m.id (some item) m.id).getD _)
          rw [Function.update_self]
          simp only [h_seen] at h_add
          exact h_add)
      exact ⟨e, List.mem_cons_of_mem _ h_error⟩

/-! ### The result -/

/-- The frames of a message, in any order, are put together again by both sides. -/
def Decodes (digest : Bytes → Vector UInt8 32) (raw : Bytes) (frames : List Bytes) : Prop :=
  ∀ order : List (ℕ × ℕ), (order.map Prod.snd).Perm (List.range frames.length) →
    (Prompt minute order →
      Assembler.feed digest (fun _ => none) (order.map fun p => (p.1, frames.getD p.2 [])) =
        List.replicate (frames.length - 1) (.ok none) ++ [.ok (some raw)]) ∧
    (Prompt ASSEMBLY_TTL_MS order →
      ChunkAssembler.feed digest [] (order.map fun p => (p.1, frames.getD p.2 [])) =
        List.replicate (frames.length - 1) (.ok none) ++ [.ok (jsonParse raw)])

/-- The message needs no chunks, or it keeps to the limits of the assemblers. -/
def Decodable (raw : Bytes) (chunkSize : ℤ) : Prop :=
  raw.length ≤ MaxHostToChrome ∨
    raw.length ≤ MaxAssembledSize ∧ totalChunks (clampChunkSize chunkSize) raw ≤ 4096

/-- If all frames pass the check, they are sent as they are. -/
theorem mapM_checkFrame {α : Type} {l : List α} {f : α → Bytes} {frames : List Bytes}
    (h : l.mapM (fun x => checkFrame (f x)) = .ok frames) :
    frames = l.map f ∧ ∀ frame ∈ frames, frame.length ≤ MaxHostToChrome := by
  induction l generalizing frames with
  | nil =>
    cases h
    exact ⟨rfl, by simp⟩
  | cons x l ih =>
    rw [List.mapM_cons] at h
    unfold checkFrame at h
    -- a frame above the limit is an error
    split_ifs at h with h_length
    · cases h
    · cases h_rest : l.mapM fun x => checkFrame (f x) with
      | error e =>
        unfold checkFrame at h_rest
        rw [h_rest] at h
        cases h
      | ok rest =>
        obtain ⟨rfl, h_all⟩ := ih h_rest
        unfold checkFrame at h_rest
        rw [h_rest] at h
        cases h
        refine ⟨rfl, ?_⟩
        rw [List.forall_mem_cons]
        exact ⟨Nat.not_lt.mp h_length, h_all⟩

/-- What the encoder emits are the frames of a message. -/
theorem frames_of_encode {random : Option (Vector UInt8 12)} {raw : Bytes} {chunkSize : ℤ}
    {frames : List Bytes} (h : encode digest random raw chunkSize = .ok frames) :
    ∃ id : String, id ≠ "" ∧
      frames = Sent.frames digest ⟨id, clampChunkSize chunkSize, raw⟩ ∧
      ∀ frame ∈ frames, frame.length ≤ MaxHostToChrome := by
  unfold encode at h
  split_ifs at h with h_valid h_short
  · cases h
    refine ⟨"id", by decide, ?_, by simpa using h_short⟩
    exact (Sent.frames_of_not_chunked digest (m := ⟨_, _, raw⟩) (Nat.not_lt.mpr h_short)).symm
  -- a long message needs an identifier
  · cases random with
    | none => cases h
    | some idBytes =>
      obtain ⟨rfl, h_length⟩ := mapM_checkFrame h
      refine ⟨String.ofList (hex idBytes.toList), ?_, ?_, h_length⟩
      · intro h_empty
        have h_hex := congrArg (fun s : String => s.toList.length) h_empty
        rw [String.toList_ofList, length_hex, Vector.length_toList] at h_hex
        revert h_hex
        decide
      · exact (Sent.frames_of_chunked digest (m := ⟨_, _, raw⟩) (Nat.not_le.mp h_short)).symm

/-- The frames of one message through the extension's assembler. -/
theorem feed_extension {m : Sent} (h_fits : m.Fits) {order : List (ℕ × ℕ)}
    (h_perm : (order.map Prod.snd).Perm (List.range (m.frames digest).length))
    (h_prompt : Prompt ASSEMBLY_TTL_MS order) :
    ChunkAssembler.feed digest [] (m.ordered digest order) =
      List.replicate ((m.frames digest).length - 1) (.ok none) ++ [.ok (jsonParse m.text)] := by
  have h_length : order.length = (m.frames digest).length := by
    have h_eq := h_perm.length_eq
    rwa [List.length_map, List.length_range] at h_eq
  by_cases h_chunked : m.Chunked
  · have h_total : (m.frames digest).length = m.total := by
      rw [Sent.frames_of_chunked digest h_chunked, List.length_map, List.length_range]
    cases order with
    | nil =>
      -- A message that is cut has a frame.
      have h_pos := m.length_frames_pos digest h_fits.size_pos
      rw [← h_length] at h_pos
      exact absurd h_pos (Nat.lt_irrefl 0)
    | cons p order =>
      have h_times : ∀ q ∈ p :: order, q.1 ≤ p.1 + ASSEMBLY_TTL_MS := by
        intro q h_q
        rcases List.mem_cons.mp h_q with rfl | h_q
        · exact Nat.le_add_right ..
        · exact ((List.pairwise_cons.mp h_prompt).1 q h_q).2
      rw [h_total] at h_perm
      have h_feed := @feed_state digest m h_fits h_chunked p.1 _ (List.cons_ne_nil p order) []
        h_perm h_times fun _ q h_q => by
          rw [← Option.some_inj.mp h_q]
      rw [← h_length]
      exact h_feed
  -- one plain message, which is its own answer
  · rw [Sent.frames_of_not_chunked digest h_chunked] at h_perm h_length ⊢
    obtain ⟨p, rfl⟩ := List.length_eq_one_iff.mp h_length
    have h_zero : p.2 = 0 := List.singleton_perm_singleton.mp h_perm
    obtain ⟨v, h_json, h_envelope, -⟩ := @parseJoined_envelope digest _ h_fits.envelope
    have h_ordered : m.ordered digest [p] = [(p.1, m.text)] := by
      rw [Sent.ordered, List.map_singleton, Sent.frames_of_not_chunked digest h_chunked, h_zero]
      rfl
    have h_accept : ChunkAssembler.accept digest [] p.1 m.text = (.ok (some v), []) := by
      rw [ChunkAssembler.accept, h_json]
      dsimp only
      rw [ChunkAssembler.acceptValue]
      rw [h_envelope]
      rfl
    rw [h_ordered, ChunkAssembler.feed]
    dsimp only
    rw [h_accept, h_json]
    rfl

/-- The frames of a message that does not keep to the limits, in their order and all at once. -/
theorem not_decodes {m : Sent} (h_id : m.id ≠ "") (h_size : 0 < m.size) (h_chunked : m.Chunked)
    (h_limits : m.text.length ≤ MaxAssembledSize → 4096 < m.total) :
    ¬ Decodes digest m.text (m.frames digest) := by
  intro h_decodes
  have h_total : (m.frames digest).length = m.total := by
    rw [Sent.frames_of_chunked digest h_chunked, List.length_map, List.length_range]
  -- the frames in their order, without any delay
  have h_order := h_decodes ((List.range m.total).map fun k => (0, k)) (by
    rw [List.map_map, h_total]
    exact (List.map_id _).symm ▸ List.Perm.refl _)
  have h_feed := h_order.1 (List.pairwise_map.mpr
    (List.pairwise_of_forall fun _ _ => ⟨le_rfl, Nat.zero_le _⟩))
  -- None of the answers is an error.
  have h_ok : ∀ e, .error e ∉ Assembler.feed digest (fun _ => none)
      ((List.range m.total).map fun k => (0, chunkFrame digest m.id m.size m.text k)) := by
    intro e h_e
    have h_frames :
        (List.range m.total).map (fun k => (0, chunkFrame digest m.id m.size m.text k)) =
        ((List.range m.total).map fun k => ((0 : ℕ), k)).map
          fun p => (p.1, (m.frames digest).getD p.2 []) := by
      rw [List.map_map]
      exact List.map_congr_left fun k h_k =>
        (congrArg (Prod.mk 0) (getD_frames h_chunked (List.mem_range.mp h_k))).symm
    rw [h_frames, h_feed] at h_e
    rcases List.mem_append.mp h_e with h_e | h_e
    · cases List.eq_of_mem_replicate h_e
    · cases List.mem_singleton.mp h_e
  have h_pos := Sent.total_pos h_size h_chunked
  -- too many chunks are refused with the first one, too many bytes with the one that exceeds the
  -- limit
  by_cases h_many : 4096 < m.total
  · obtain ⟨e, h_error⟩ := accept_invalid h_many (fun _ => none) 0
    obtain ⟨n, h_n⟩ : ∃ n, m.total = n + 1 := ⟨m.total - 1, by omega⟩
    refine h_ok e ?_
    rw [h_n, List.range_succ_eq_map, List.map_cons, Assembler.feed]
    exact h_error ▸ List.mem_cons_self
  · have h_long : MaxAssembledSize < m.text.length := by
      by_contra h_short
      exact h_many (h_limits (Nat.not_lt.mp h_short))
    obtain ⟨e, h_error⟩ := feed_too_long h_id h_size (Nat.not_lt.mp h_many)
      h_long 0 (a := fun _ => none) (List.Perm.refl _)
      (by
        intro h_nil
        have h_zero : m.total = 0 := List.range_eq_nil.mp h_nil
        omega) rfl (fun k => Holds.new (fun j => List.not_mem_nil) 0)
    exact h_ok e h_error

/-- **What the host emits can be decoded if it keeps to the limits.** -/
theorem encode_decodes_iff {random : Option (Vector UInt8 12)} {raw : Bytes} {chunkSize : ℤ}
    {frames : List Bytes} (h_raw : Envelope raw)
    (h : encode digest random raw chunkSize = .ok frames) :
    ((∀ frame ∈ frames, frame.length ≤ MaxHostToChrome) ∧ Decodes digest raw frames) ↔
      Decodable raw chunkSize := by
  obtain ⟨id, h_id, rfl, h_length⟩ := frames_of_encode h
  have h_size := clampChunkSize_pos chunkSize
  constructor
  -- beyond the limits some order of the frames is refused
  · rintro ⟨-, h_decodes⟩
    by_contra h_not
    obtain ⟨h_long, h_limits⟩ := not_or.mp h_not
    have h_chunked : Sent.Chunked ⟨id, clampChunkSize chunkSize, raw⟩ := Nat.not_le.mp h_long
    exact not_decodes h_id h_size h_chunked
      (fun h_le => Nat.not_le.mp fun h_total => h_limits ⟨h_le, h_total⟩) h_decodes
  -- within them every order gives the message, on both sides
  · intro h_decodable
    have h_fits : Sent.Fits ⟨id, clampChunkSize chunkSize, raw⟩ := by
      refine ⟨h_raw, h_id, h_size, ?_, ?_⟩
      · rcases h_decodable with h_short | ⟨h_le, -⟩
        · exact le_trans (show raw.length ≤ MaxHostToChrome from h_short) (by decide)
        · exact h_le
      · intro h_chunked
        rcases h_decodable with h_short | ⟨-, h_total⟩
        · exact absurd h_short (Nat.not_le.mpr h_chunked)
        · exact h_total
    refine ⟨h_length, fun order h_perm => ⟨fun h_prompt => ?_, fun h_prompt => ?_⟩⟩
    · exact feed_single h_fits h_perm h_prompt
    · exact feed_extension h_fits h_perm h_prompt

/-- Frames that are short enough pass it. -/
theorem mapM_checkFrame_ok {α : Type} {l : List α} {f : α → Bytes}
    (h : ∀ x ∈ l, (f x).length ≤ MaxHostToChrome) :
    l.mapM (fun x => checkFrame (f x)) = .ok (l.map f) := by
  induction l with
  | nil => rfl
  | cons x l ih =>
    rw [List.forall_mem_cons] at h
    have h_frame : checkFrame (f x) = .ok (f x) := if_neg (Nat.not_lt.mpr h.1)
    rw [List.mapM_cons, h_frame, ih h.2]
    rfl

/-- A message that is not astronomically long is encoded. -/
theorem encode_ok {random : Vector UInt8 12} {raw : Bytes} {chunkSize : ℤ} (h_raw : Envelope raw)
    (h_long : MaxHostToChrome < raw.length)
    (h_total : totalChunks (clampChunkSize chunkSize) raw < 2 ^ 63) :
    encode digest (some random) raw chunkSize =
      .ok (Sent.frames digest ⟨String.ofList (hex random.toList), clampChunkSize chunkSize,
        raw⟩) := by
  -- The random id passes the frame's own check.
  have h_id : (String.ofList (hex random.toList)).toList.length ≤ 100 ∧
      ∀ c ∈ (String.ofList (hex random.toList)).toList, c ∈ hexDigits := by
    rw [String.toList_ofList]
    refine ⟨?_, fun c h_c => mem_hexDigits h_c⟩
    rw [length_hex, Vector.length_toList]
    decide
  have h_frames := mapM_checkFrame_ok (l := List.range (totalChunks (clampChunkSize chunkSize) raw))
    (f := chunkFrame digest (String.ofList (hex random.toList)) (clampChunkSize chunkSize) raw)
    fun index h_index => length_chunkFrame_le digest h_id (clampChunkSize_le chunkSize)
      ((List.mem_range.mp h_index).trans h_total) h_total
  rw [encode, if_neg (not_not.mpr (valid_of_envelope h_raw)), if_neg (Nat.not_le.mpr h_long),
    Sent.frames_of_chunked digest (m := ⟨_, _, raw⟩) h_long]
  exact h_frames

/-! ### Samples -/

/-- A message in chunks of the usual size. -/
theorem encode_decodes_iff_usual : Envelope (paddedObject (1024 * 1024)) ∧
    ∀ (digest : Bytes → Vector UInt8 32) (random : Vector UInt8 12), ∃ frames,
      encode digest (some random) (paddedObject (1024 * 1024)) 0 = .ok frames ∧
      (∀ frame ∈ frames, frame.length ≤ MaxHostToChrome) ∧
      Decodes digest (paddedObject (1024 * 1024)) frames := by
  refine ⟨envelope_paddedObject _, fun digest random => ?_⟩
  have h_long : MaxHostToChrome < (paddedObject (1024 * 1024)).length := by
    rw [length_paddedObject]
    decide
  -- Three chunks, far below the limit.
  have h_total : totalChunks (clampChunkSize 0) (paddedObject (1024 * 1024)) = 3 := by
    have h_clamp : clampChunkSize 0 = 512 * 1024 := by decide
    rw [totalChunks, length_paddedObject, h_clamp]
  have h_encode := @encode_ok digest random _ 0 (envelope_paddedObject _) h_long
    (by rw [h_total]; decide)
  refine ⟨_, h_encode, (encode_decodes_iff (envelope_paddedObject _) h_encode).mpr (.inr ⟨?_, ?_⟩)⟩
  · rw [length_paddedObject]
    decide
  · rw [h_total]
    decide

/-- The same message in chunks of one byte. -/
theorem not_encode_decodes_manyChunks : Envelope (paddedObject (1024 * 1024)) ∧
    ∀ (digest : Bytes → Vector UInt8 32) (random : Vector UInt8 12), ∃ frames,
      encode digest (some random) (paddedObject (1024 * 1024)) 1 = .ok frames ∧
      ¬ Decodes digest (paddedObject (1024 * 1024)) frames := by
  refine ⟨envelope_paddedObject _, fun digest random => ?_⟩
  have h_long : MaxHostToChrome < (paddedObject (1024 * 1024)).length := by
    rw [length_paddedObject]
    decide
  -- one byte per chunk makes too many chunks
  have h_total : totalChunks (clampChunkSize 1) (paddedObject (1024 * 1024)) = 1024 * 1024 + 2 := by
    have h_clamp : clampChunkSize 1 = 1 := by decide
    rw [totalChunks, length_paddedObject, h_clamp]
  have h_encode := @encode_ok digest random _ 1 (envelope_paddedObject _) h_long
    (by rw [h_total]; decide)
  obtain ⟨id, h_id, h_frames, -⟩ := frames_of_encode h_encode
  refine ⟨_, h_encode, ?_⟩
  rw [h_frames]
  refine not_decodes (m := ⟨id, clampChunkSize 1, paddedObject (1024 * 1024)⟩) h_id
    (clampChunkSize_pos 1) h_long fun _ => ?_
  show 4096 < totalChunks (clampChunkSize 1) (paddedObject (1024 * 1024))
  rw [h_total]
  decide

end BrowserControl.NativeMessaging
