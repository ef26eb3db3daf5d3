import BrowserControl.NativeMessaging.Gathering

/-!
# Messages through the host's assembler

`feed_interleaving` is about messages that are sent in frames, whoever cut them: if their frames
arrive in any order, mixed with one another and some of them more than once, then the assembler
answers the frame with which a message is complete with this message, and every other frame with
nothing. What is asked of the frames is an `Interleaving`: all frames arrive, none of a message
that is complete, and a message is not left alone for more than a minute.

The state of the assembler is told by what has arrived (`Tracks`): it has an entry for each message
of which some chunks are there and some are not, and the entry `Holds` these.
-/

namespace BrowserControl.NativeMessaging

open Encoding

variable (digest : Bytes → Vector UInt8 32)

/-! ### Messages -/

/-- A message: an object that no side takes for an envelope. -/
def Envelope (text : Bytes) : Prop :=
  ∃ fields, parse text = some (.obj fields) ∧
    ∀ field ∈ fields, foldName field.1 ≠ foldName "__bc_chunk"

/-- A message on its way: its text, and how it is cut. -/
structure Sent where
  id : String
  size : ℕ
  text : Bytes

/-- How many chunks it has. -/
def Sent.total (m : Sent) : ℕ := totalChunks m.size m.text

/-- It is too long for one frame. -/
def Sent.Chunked (m : Sent) : Prop := MaxHostToChrome < m.text.length

instance (m : Sent) : Decidable m.Chunked :=
  inferInstanceAs (Decidable (MaxHostToChrome < m.text.length))

/-- The frames of a message. -/
def Sent.frames (m : Sent) : List Bytes :=
  if m.Chunked then (List.range m.total).map (chunkFrame digest m.id m.size m.text) else [m.text]

/-- A long message is sent in chunks. -/
theorem Sent.frames_of_chunked {m : Sent} (h : m.Chunked) :
    m.frames digest = (List.range m.total).map (chunkFrame digest m.id m.size m.text) := if_pos h

/-- A short one is sent as it is. -/
theorem Sent.frames_of_not_chunked {m : Sent} (h : ¬ m.Chunked) : m.frames digest = [m.text] :=
  if_neg h

/-- A message that is cut has a chunk. -/
theorem Sent.total_pos {m : Sent} (h_size : 0 < m.size) (h : m.Chunked) : 0 < m.total := by
  have h_le := length_le_totalChunks h_size m.text
  have h_long : MaxHostToChrome < m.text.length := h
  refine Nat.pos_of_ne_zero fun h_zero => ?_
  rw [Sent.total] at h_zero
  rw [h_zero, Nat.zero_mul] at h_le
  omega

/-- There is always a frame. -/
theorem Sent.length_frames_pos (m : Sent) (h_size : 0 < m.size) : 0 < (m.frames digest).length := by
  unfold Sent.frames
  split_ifs with h_chunked
  · rw [List.length_map, List.length_range]
    exact Sent.total_pos h_size h_chunked
  · exact Nat.one_pos

/-- The message keeps to the limits. -/
structure Sent.Fits (m : Sent) : Prop where
  envelope : Envelope m.text
  id_ne : m.id ≠ ""
  size_pos : 0 < m.size
  length : m.text.length ≤ MaxAssembledSize
  total : m.Chunked → m.total ≤ 4096

/-- What has no field for a chunk is no chunk. -/
theorem unmarshal_envelope {fields : List (String × Json)}
    (h : ∀ field ∈ fields, foldName field.1 ≠ foldName "__bc_chunk") :
    unmarshal (.obj fields) = some none := by
  show fields.foldlM setChunk none = some none
  induction fields with
  | nil => rfl
  | cons field fields ih =>
    rw [List.forall_mem_cons] at h
    rw [List.foldlM_cons, setChunk, if_neg h.1]
    exact ih h.2

/-- A message in one frame is complete. -/
theorem accept_envelope {text : Bytes} (h : Envelope text) (a : Assembler) (now : ℕ) :
    a.accept digest now text = (.ok (some text), a) := by
  obtain ⟨fields, h_parse, h_fields⟩ := h
  rw [Assembler.accept, h_parse]
  dsimp only
  rw [unmarshal_envelope h_fields]

/-- An envelope is well formed. -/
theorem valid_of_envelope {text : Bytes} (h : Envelope text) : valid text := by
  obtain ⟨fields, h_parse, -⟩ := h
  rw [valid, h_parse]
  rfl

/-! ### One chunk -/

/-- A chunk of a message as it is read. -/
def Sent.chunk (m : Sent) (k : ℕ) : Chunk :=
  ⟨1, m.id, k, m.total, digestText digest m.text,
    String.ofList (Base64.encode (slice m.size m.text k))⟩

/-- A digest is not empty. -/
theorem digestText_ne (bytes : Bytes) : digestText digest bytes ≠ "" := by
  intro h
  have h_sha256 := isSha256_digestText digest bytes
  rw [h] at h_sha256
  revert h_sha256
  decide

/-- An envelope reaches its stream if there are not too many chunks. -/
theorem accept_chunkFrame {m : Sent} (h_id : m.id ≠ "") (h_total : m.total ≤ 4096) {k : ℕ}
    (h_k : k < m.total) (a : Assembler) (now : ℕ) :
    a.accept digest now (chunkFrame digest m.id m.size m.text k) =
      (a.prune now).acceptPart digest now (m.chunk digest k) (slice m.size m.text k) := by
  -- the frame is read back as the chunk that was written
  have h_unmarshal : unmarshal (chunkJson m.id k m.total (digestText digest m.text)
      (String.ofList (Base64.encode (slice m.size m.text k)))) = some (some (m.chunk digest k)) :=
    unmarshal_chunkJson _ _ _ (by omega) (by omega)
  have h_valid : ¬ (m.chunk digest k).Invalid := by
    have h_sha256 := digestText_ne digest m.text
    simp only [Chunk.Invalid, Sent.chunk]
    simp only [h_id, h_sha256, ne_eq, not_true_eq_false, false_or, or_false]
    omega
  have h_decode : Base64.decode (m.chunk digest k).data.toList = some (slice m.size m.text k) := by
    show Base64.decode (String.ofList _).toList = _
    rw [String.toList_ofList, Base64.decode_encode]
  rw [Assembler.accept, chunkFrame, parse_marshal]
  have h_chunks : totalChunks m.size m.text = m.total := rfl
  dsimp only
  rw [h_chunks, h_unmarshal]
  dsimp only
  rw [if_neg h_valid, h_decode]

/-- The entry of a stream has the parts that have been seen. -/
structure Holds (m : Sent) (seen : ℕ → Prop) (item : Assembly) : Prop where
  total : item.total = m.total
  sha256 : item.sha256 = digestText digest m.text
  parts : Parts (slice m.size m.text) m.total item.parts
  seen : ∀ k, k ∈ item.parts.map Prod.fst ↔ seen k
  size : item.size = (item.parts.map fun p => p.2.length).sum

variable {digest} {m : Sent} {seen : ℕ → Prop} {item : Assembly}

/-- What is held of a message is a gathering of its slices. -/
theorem Holds.gathers (h : Holds digest m seen item) :
    Gathers (slice m.size m.text) m.total seen item := ⟨h.parts, h.seen, h.size⟩

/-- A new entry has no parts. -/
theorem Holds.new (h : ∀ k, ¬ seen k) (now : ℕ) :
    Holds digest m seen ⟨m.total, digestText digest m.text, [], 0, now⟩ :=
  have h_new := Gathers.new (f := slice m.size m.text) h (digestText digest m.text) now
  ⟨rfl, rfl, h_new.parts, h_new.seen, h_new.size⟩

/-- A part is put into its place. -/
theorem Holds.add (h : Holds digest m seen item) {k : ℕ} (h_k : k < m.total) (now : ℕ) :
    Holds digest m (fun j => seen j ∨ j = k) (item.add k (slice m.size m.text k) now) ∧
      (item.add k (slice m.size m.text k) now).updatedAt = now := by
  obtain ⟨h_total, h_sha256, h_updatedAt⟩ := add_declares item k (slice m.size m.text k) now
  have h_add := h.gathers.add h_k (fun _ => rfl) now
  exact ⟨⟨h_total.trans h.total, h_sha256.trans h.sha256, h_add.parts, h_add.seen, h_add.size⟩,
    h_updatedAt⟩

/-- An entry does not get too long. -/
theorem Holds.size_le (h : Holds digest m seen item) (h_size : 0 < m.size) :
    item.size ≤ m.text.length := by
  calc item.size ≤ ((List.range m.total).flatMap (slice m.size m.text)).length := h.gathers.size_le
    _ = m.text.length := by rw [Sent.total, flatMap_slice_totalChunks h_size]

/-- What comes of a stream that holds its parts. -/
theorem settle_of_holds (h_fits : m.Fits) (a : Assembler) (k : ℕ)
    (h : Holds digest m seen item) :
    ((∀ j < m.total, seen j) ∧ a.settle digest (m.chunk digest k) item =
        (.ok (some m.text), Function.update a m.id none)) ∨
      (¬ (∀ j < m.total, seen j) ∧ a.settle digest (m.chunk digest k) item =
        (.ok none, Function.update a m.id (some item))) := by
  have h_size : item.size ≤ MaxAssembledSize := (h.size_le h_fits.size_pos).trans h_fits.length
  rcases h.gathers.settle h.total h_size digest a (m.chunk digest k) with
    ⟨h_all, -, h_settle⟩ | ⟨h_missing, h_settle⟩
  · -- The parts together are the message, which has the digest of the chunk.
    have h_text : (List.range m.total).flatMap (slice m.size m.text) = m.text :=
      flatMap_slice_totalChunks h_fits.size_pos m.text
    have h_check : checkResult digest (m.chunk digest k).sha256 m.text = .ok (some m.text) := by
      show checkResult digest (digestText digest m.text) m.text = _
      rw [checkResult, if_neg (not_not.mpr rfl),
        if_neg (not_not.mpr (valid_of_envelope h_fits.envelope))]
    refine .inl ⟨h_all, h_settle.trans ?_⟩
    rw [h_text, h_check]
    rfl
  · exact .inr ⟨h_missing, h_settle⟩

/-- **What a chunk does.** The message is complete with its last missing chunk. -/
theorem acceptPart_of_holds (h_fits : m.Fits) {a : Assembler} {now k : ℕ} (h_k : k < m.total)
    (h : Holds digest m seen (a.entry now (m.chunk digest k))) :
    ((∀ j < m.total, seen j ∨ j = k) ∧
        a.acceptPart digest now (m.chunk digest k) (slice m.size m.text k) =
          (.ok (some m.text), Function.update a m.id none)) ∨
      (¬ (∀ j < m.total, seen j ∨ j = k) ∧ ∃ item,
        a.acceptPart digest now (m.chunk digest k) (slice m.size m.text k) =
          (.ok none, Function.update a m.id (some item)) ∧
        Holds digest m (fun j => seen j ∨ j = k) item ∧ item.updatedAt = now) := by
  obtain ⟨h_add, h_updatedAt⟩ := h.add h_k now
  -- The entry was begun by a chunk of the same message.
  have h_consistent : ¬ (((a.entry now (m.chunk digest k)).total : ℤ) ≠ (m.chunk digest k).total ∨
      (a.entry now (m.chunk digest k)).sha256 ≠ (m.chunk digest k).sha256) := by
    rw [h.total, h.sha256]
    simp [Sent.chunk]
  rw [Assembler.acceptPart, if_neg h_consistent]
  rcases settle_of_holds h_fits a k h_add with ⟨h_all, h_settle⟩ | ⟨h_all, h_settle⟩
  · exact .inl ⟨h_all, h_settle⟩
  · exact .inr ⟨h_all, _, h_settle, h_add, h_updatedAt⟩

/-! ### Many messages -/

section

variable {ι : Type}

/-- A frame of a message arrives. -/
structure Arrival (ι : Type) where
  time : ℕ
  message : ι
  frame : ℕ

/-- This frame is among those that have arrived. -/
def Arrived (hist : List (Arrival ι)) (i : ι) (k : ℕ) : Prop :=
  ∃ a ∈ hist, a.message = i ∧ a.frame = k

variable (frames : ι → List Bytes)

/-- All frames of a message have arrived. -/
def Complete (hist : List (Arrival ι)) (i : ι) : Prop :=
  ∀ k < (frames i).length, Arrived hist i k

/-- What arrives, and when. -/
def wire (a : Arrival ι) : ℕ × Bytes := (a.time, (frames a.message).getD a.frame [])

/-- The frames of some messages arrive in some order, and some of them again. -/
structure Interleaving (arrivals : List (Arrival ι)) : Prop where
  sorted : arrivals.Pairwise fun a b => a.time ≤ b.time
  sent : ∀ a ∈ arrivals, a.frame < (frames a.message).length
  all : ∀ i, Complete frames arrivals i
  /-- Nothing of a message arrives after it is complete. -/
  incomplete : ∀ {before a after}, arrivals = before ++ a :: after →
    ¬ Complete frames before a.message
  /-- There is at most a minute between two frames of a message. -/
  prompt : ∀ {before a between b after}, arrivals = before ++ a :: (between ++ b :: after) →
    b.message = a.message → (∀ c ∈ between, c.message ≠ a.message) → b.time ≤ a.time + minute

variable {frames}

theorem arrived_append {hist : List (Arrival ι)} {x : Arrival ι} {i : ι} {k : ℕ} :
    Arrived (hist ++ [x]) i k ↔ Arrived hist i k ∨ x.message = i ∧ x.frame = k := by
  simp only [Arrived, List.mem_append, List.mem_singleton]
  constructor
  · rintro ⟨a, h_a | rfl, h⟩
    · exact .inl ⟨a, h_a, h⟩
    · exact .inr h
  · rintro (⟨a, h_a, h⟩ | h)
    · exact ⟨a, .inl h_a, h⟩
    · exact ⟨x, .inr rfl, h⟩

/-- A frame of another message changes nothing. -/
theorem arrived_append_of_ne {hist : List (Arrival ι)} {x : Arrival ι} {i : ι}
    (h : x.message ≠ i) : Arrived (hist ++ [x]) i = Arrived hist i := by
  funext k
  apply propext
  rw [arrived_append]
  exact or_iff_left fun h_x => h h_x.1

theorem complete_append_of_ne {hist : List (Arrival ι)} {x : Arrival ι} {i : ι}
    (h : x.message ≠ i) : Complete frames (hist ++ [x]) i ↔ Complete frames hist i := by
  unfold Complete
  rw [arrived_append_of_ne h]

theorem arrived_append_self {hist : List (Arrival ι)} {x : Arrival ι} :
    Arrived (hist ++ [x]) x.message = fun k => Arrived hist x.message k ∨ k = x.frame := by
  funext k
  apply propext
  rw [arrived_append]
  exact or_congr_right ⟨fun h => h.2.symm, fun h => ⟨rfl, h.symm⟩⟩

/-- The last frame of a message arrived at this time. -/
def Last (hist : List (Arrival ι)) (i : ι) (time : ℕ) : Prop :=
  ∃ before a after, hist = before ++ a :: after ∧ a.message = i ∧ a.time = time ∧
    ∀ b ∈ after, b.message ≠ i

/-- A frame of another message is not the last one of this. -/
theorem Last.append {hist : List (Arrival ι)} {i : ι} {time : ℕ} (h : Last hist i time)
    {x : Arrival ι} (h_x : x.message ≠ i) : Last (hist ++ [x]) i time := by
  obtain ⟨before, a, after, rfl, h_a, h_time, h_after⟩ := h
  refine ⟨before, a, after ++ [x], by simp, h_a, h_time, fun b h_b => ?_⟩
  rcases List.mem_append.mp h_b with h_b | h_b
  · exact h_after b h_b
  · rwa [List.mem_singleton.mp h_b]

theorem last_append_self (hist : List (Arrival ι)) (x : Arrival ι) :
    Last (hist ++ [x]) x.message x.time :=
  ⟨hist, x, [], rfl, rfl, rfl, fun _ h => absurd h List.not_mem_nil⟩

/-- A message that is not complete is heard of within a minute. -/
theorem Interleaving.le_of_last {arrivals : List (Arrival ι)} (h : Interleaving frames arrivals)
    {hist rest : List (Arrival ι)} {x : Arrival ι} (h_arrivals : arrivals = hist ++ x :: rest)
    {i : ι} (h_incomplete : ¬ Complete frames hist i) {time : ℕ} (h_last : Last hist i time) :
    x.time ≤ time + minute := by
  classical
  obtain ⟨before, a, after, rfl, h_a, rfl, h_after⟩ := h_last
  -- Some frame of the message is still to come; the first is not too late.
  obtain ⟨y, h_y, h_message⟩ : ∃ y ∈ x :: rest, y.message = i := by
    obtain ⟨k, h_k, h_missing⟩ : ∃ k < (frames i).length, ¬ Arrived (before ++ a :: after) i k := by
      simpa only [Complete, not_forall, exists_prop] using h_incomplete
    obtain ⟨y, h_y, h_i, h_frame⟩ := h.all i k h_k
    rw [h_arrivals] at h_y
    rcases List.mem_append.mp h_y with h_y | h_y
    · exact absurd ⟨y, h_y, h_i, h_frame⟩ h_missing
    · exact ⟨y, h_y, h_i⟩
  obtain ⟨z, h_find⟩ : ∃ z, (x :: rest).find? (fun y => y.message = i) = some z :=
    Option.isSome_iff_exists.mp
      (List.find?_isSome.mpr ⟨y, h_y, decide_eq_true h_message⟩)
  obtain ⟨h_z, between, later, h_split, h_between⟩ := List.find?_eq_some_iff_append.mp h_find
  have h_z : z.message = i := of_decide_eq_true h_z
  have h_prompt : z.time ≤ a.time + minute := by
    have h_order : arrivals = before ++ a :: ((after ++ between) ++ z :: later) := by
      rw [h_arrivals, h_split]
      simp
    refine h.prompt h_order (h_z.trans h_a.symm) ?_
    · intro c h_c
      rw [h_a]
      rcases List.mem_append.mp h_c with h_c | h_c
      · exact h_after c h_c
      · simpa using h_between c h_c
  have h_sorted : x.time ≤ z.time := by
    have h_pairwise := h.sorted
    rw [h_arrivals, List.pairwise_append, List.pairwise_cons] at h_pairwise
    have h_mem : z ∈ x :: rest := List.mem_of_find?_eq_some h_find
    rcases List.mem_cons.mp h_mem with rfl | h_mem
    · exact le_rfl
    · exact h_pairwise.2.1.1 z h_mem
  exact h_sorted.trans h_prompt

variable (digest) (messages : ι → Sent)

/-- An entry of the assembler is about a message of which some chunks have arrived. -/
structure Tracked (hist : List (Arrival ι)) (i : ι) (item : Assembly) : Prop where
  chunked : (messages i).Chunked
  incomplete : ¬ Complete (fun i => (messages i).frames digest) hist i
  holds : Holds digest (messages i) (Arrived hist i) item
  last : Last hist i item.updatedAt

/-- What the assembler keeps, told by what has arrived. -/
structure Tracks (hist : List (Arrival ι)) (a : Assembler) : Prop where
  tracked : ∀ id item, a id = some item →
    ∃ i, (messages i).id = id ∧ Tracked digest messages hist i item
  present : ∀ i, (messages i).Chunked →
    ¬ Complete (fun i => (messages i).frames digest) hist i →
    (∃ k, Arrived hist i k) → ∃ item, a (messages i).id = some item

variable {digest messages}

/-- Frames of other messages change nothing of what is gathered. -/
theorem Tracked.append {hist : List (Arrival ι)} {i : ι} {item : Assembly}
    (h : Tracked digest messages hist i item) {x : Arrival ι} (h_x : x.message ≠ i) :
    Tracked digest messages (hist ++ [x]) i item where
  chunked := h.chunked
  incomplete := (complete_append_of_ne h_x).not.mpr h.incomplete
  holds := by
    rw [arrived_append_of_ne h_x]
    exact h.holds
  last := h.last.append h_x

theorem Tracks.nil : Tracks digest messages [] fun _ => none where
  tracked := by
    intro id item h
    cases h
  present := by
    rintro i - - ⟨k, a, h_a, -⟩
    cases h_a

/-- Nothing is forgotten that is still to be completed. -/
theorem Tracks.prune {arrivals hist rest : List (Arrival ι)} {x : Arrival ι}
    (h : Interleaving (fun i => (messages i).frames digest) arrivals)
    (h_arrivals : arrivals = hist ++ x :: rest) {a : Assembler}
    (h_tracks : Tracks digest messages hist a) : a.prune x.time = a := by
  funext id
  unfold Assembler.prune
  cases h_id : a id with
  | none => rfl
  | some item =>
    obtain ⟨i, -, h_tracked⟩ := h_tracks.tracked id item h_id
    have h_le := h.le_of_last h_arrivals h_tracked.incomplete h_tracked.last
    refine Option.filter_eq_some_iff.mpr ⟨rfl, decide_eq_true ?_⟩
    omega

/-- A frame that is a whole message. -/
theorem Tracks.step_whole {hist : List (Arrival ι)} {x : Arrival ι} {a : Assembler}
    (h_tracks : Tracks digest messages hist a) (h_x : ¬ (messages x.message).Chunked) :
    Tracks digest messages (hist ++ [x]) a where
  tracked := by
    intro id item h_id
    obtain ⟨i, h_i, h_tracked⟩ := h_tracks.tracked id item h_id
    refine ⟨i, h_i, h_tracked.append ?_⟩
    rintro rfl
    exact h_x h_tracked.chunked
  present := by
    intro i h_chunked h_incomplete h_some
    -- A message in one frame is not one of the chunked ones.
    have h_ne : x.message ≠ i := by
      rintro rfl
      exact h_x h_chunked
    rw [complete_append_of_ne h_ne] at h_incomplete
    rw [arrived_append_of_ne h_ne] at h_some
    exact h_tracks.present i h_chunked h_incomplete h_some

/-- A chunk after which its message is, or is not, complete. -/
theorem Tracks.step_chunk (h_ids : Function.Injective fun i => (messages i).id)
    {hist : List (Arrival ι)} {x : Arrival ι} {a : Assembler}
    (h_tracks : Tracks digest messages hist a) {entry : Option Assembly}
    (h_some : ∀ item, entry = some item → Tracked digest messages (hist ++ [x]) x.message item)
    (h_none : entry = none →
      Complete (fun i => (messages i).frames digest) (hist ++ [x]) x.message) :
    Tracks digest messages (hist ++ [x])
      (Function.update a (messages x.message).id entry) where
  -- the entry of this stream by assumption, the others as before
  tracked := by
    intro id item h_id
    by_cases h : id = (messages x.message).id
    · subst h
      rw [Function.update_self] at h_id
      exact ⟨x.message, rfl, h_some item h_id⟩
    · rw [Function.update_of_ne h] at h_id
      obtain ⟨i, h_i, h_tracked⟩ := h_tracks.tracked id item h_id
      refine ⟨i, h_i, h_tracked.append ?_⟩
      rintro rfl
      exact h h_i.symm
  -- a message that has begun and is not complete has its entry
  present := by
    intro i h_chunked h_incomplete h_arrived
    by_cases h : x.message = i
    · subst h
      cases entry with
      | none => exact absurd (h_none rfl) h_incomplete
      | some item => exact ⟨item, Function.update_self ..⟩
    · rw [complete_append_of_ne h] at h_incomplete
      rw [arrived_append_of_ne h] at h_arrived
      obtain ⟨item, h_item⟩ := h_tracks.present i h_chunked h_incomplete h_arrived
      refine ⟨item, ?_⟩
      rw [Function.update_of_ne (fun h_eq => h (h_ids h_eq.symm)), h_item]

/-- **One frame.** The assembler answers with the message if it is complete with this frame, and
with nothing otherwise. -/
theorem Tracks.step (h_ids : Function.Injective fun i => (messages i).id)
    (h_fits : ∀ i, (messages i).Fits) {arrivals hist rest : List (Arrival ι)} {x : Arrival ι}
    (h : Interleaving (fun i => (messages i).frames digest) arrivals)
    (h_arrivals : arrivals = hist ++ x :: rest) {a : Assembler}
    (h_tracks : Tracks digest messages hist a) :
    ∃ answer a', a.accept digest (wire (fun i => (messages i).frames digest) x).1
        (wire (fun i => (messages i).frames digest) x).2 = (.ok answer, a') ∧
      Tracks digest messages (hist ++ [x]) a' ∧
      (Complete (fun i => (messages i).frames digest) (hist ++ [x]) x.message →
        answer = some (messages x.message).text) ∧
      (¬ Complete (fun i => (messages i).frames digest) (hist ++ [x]) x.message →
        answer = none) := by
  have h_frame : x.frame < ((messages x.message).frames digest).length :=
    h.sent x (h_arrivals ▸ List.mem_append_right hist List.mem_cons_self)
  have h_new : ¬ Complete (fun i => (messages i).frames digest) hist x.message :=
    h.incomplete h_arrivals
  have h_prune := h_tracks.prune h h_arrivals
  unfold wire
  by_cases h_chunked : (messages x.message).Chunked
  · have h_frames : (messages x.message).frames digest =
        (List.range (messages x.message).total).map (chunkFrame digest (messages x.message).id
          (messages x.message).size (messages x.message).text) := if_pos h_chunked
    have h_length : ((messages x.message).frames digest).length = (messages x.message).total := by
      rw [h_frames, List.length_map, List.length_range]
    rw [h_length] at h_frame
    have h_wire : ((messages x.message).frames digest).getD x.frame [] =
        chunkFrame digest (messages x.message).id (messages x.message).size
          (messages x.message).text x.frame := by
      rw [h_frames, List.getD_eq_getElem?_getD, List.getElem?_map, List.getElem?_range h_frame]
      rfl
    have h_complete : Complete (fun i => (messages i).frames digest) (hist ++ [x]) x.message ↔
        ∀ j < (messages x.message).total, Arrived hist x.message j ∨ j = x.frame := by
      unfold Complete
      rw [arrived_append_self, h_length]
    -- The entry of the stream holds what has arrived of it, also if there is none.
    have h_holds : Holds digest (messages x.message) (Arrived hist x.message)
        (a.entry x.time ((messages x.message).chunk digest x.frame)) := by
      unfold Assembler.entry
      show Holds _ _ _ ((a (messages x.message).id).getD _)
      cases h_id : a (messages x.message).id with
      | none =>
        refine Holds.new ?_ x.time
        intro k h_k
        obtain ⟨item, h_item⟩ := h_tracks.present x.message h_chunked h_new ⟨k, h_k⟩
        rw [h_id] at h_item
        cases h_item
      | some item =>
        obtain ⟨i, h_i, h_tracked⟩ := h_tracks.tracked _ item h_id
        obtain rfl : i = x.message := h_ids h_i
        exact h_tracked.holds
    have h_accept := accept_chunkFrame digest (h_fits x.message).id_ne
      ((h_fits x.message).total h_chunked) h_frame a x.time
    rw [h_prune] at h_accept
    dsimp only
    rw [h_wire, h_accept, h_complete]
    -- the message is complete now, or its entry stays
    rcases acceptPart_of_holds (h_fits x.message) h_frame h_holds with
      ⟨h_all, h_part⟩ | ⟨h_all, item, h_part, h_item, h_time⟩
    · refine ⟨_, _, h_part, h_tracks.step_chunk h_ids ?_ ?_, fun _ => rfl,
        fun h_not => absurd h_all h_not⟩
      · intro item h_item
        cases h_item
      · exact fun _ => h_complete.mpr h_all
    · refine ⟨_, _, h_part, h_tracks.step_chunk h_ids ?_ ?_, fun h_yes => absurd h_yes h_all,
        fun _ => rfl⟩
      · intro item' h_item'
        obtain rfl := Option.some_inj.mp h_item'
        refine ⟨h_chunked, h_complete.not.mpr h_all, ?_, ?_⟩
        · rw [arrived_append_self]
          exact h_item
        · rw [h_time]
          exact last_append_self hist x
      · intro h_none
        cases h_none
  -- a message in one frame does not touch the table
  · have h_frames : (messages x.message).frames digest = [(messages x.message).text] :=
      if_neg h_chunked
    have h_zero : x.frame = 0 := by
      rw [h_frames, List.length_singleton] at h_frame
      omega
    have h_complete : Complete (fun i => (messages i).frames digest) (hist ++ [x]) x.message := by
      intro k h_k
      dsimp only at h_k
      rw [h_frames, List.length_singleton] at h_k
      exact arrived_append.mpr (.inr ⟨rfl, by omega⟩)
    dsimp only
    rw [h_frames, h_zero, List.getD_cons_zero, accept_envelope digest (h_fits x.message).envelope]
    exact ⟨_, a, rfl, h_tracks.step_whole h_chunked, fun _ => rfl,
      fun h_not => absurd h_complete h_not⟩

/-- The answers to the frames that are still to come. -/
theorem feed_of_tracks (h_ids : Function.Injective fun i => (messages i).id)
    (h_fits : ∀ i, (messages i).Fits) {arrivals : List (Arrival ι)}
    (h : Interleaving (fun i => (messages i).frames digest) arrivals) {hist rest : List (Arrival ι)}
    (h_arrivals : arrivals = hist ++ rest) {a : Assembler}
    (h_tracks : Tracks digest messages hist a) {before after : List (Arrival ι)} {x : Arrival ι}
    (h_rest : rest = before ++ x :: after) :
    ∃ answer,
      (a.feed digest (rest.map (wire fun i => (messages i).frames digest)))[before.length]? =
        some (.ok answer) ∧
      (Complete (fun i => (messages i).frames digest) (hist ++ before ++ [x]) x.message →
        answer = some (messages x.message).text) ∧
      (¬ Complete (fun i => (messages i).frames digest) (hist ++ before ++ [x]) x.message →
        answer = none) := by
  induction before generalizing hist rest a with
  -- the frame itself
  | nil =>
    subst h_rest
    obtain ⟨answer, a', h_accept, -, h_yes, h_no⟩ := h_tracks.step h_ids h_fits h h_arrivals
    refine ⟨answer, ?_, by simpa using h_yes, by simpa using h_no⟩
    rw [List.nil_append, List.map_cons, Assembler.feed, h_accept]
    rfl
  -- a frame before it
  | cons y before ih =>
    subst h_rest
    obtain ⟨_, a', h_accept, h_tracks', -, -⟩ := h_tracks.step h_ids h_fits h h_arrivals
    obtain ⟨answer, h_answer, h_yes, h_no⟩ := ih (by simpa using h_arrivals)
      h_tracks' rfl
    refine ⟨answer, ?_, by simpa using h_yes, by simpa using h_no⟩
    rw [List.cons_append, List.map_cons, Assembler.feed, h_accept, List.length_cons,
      List.getElem?_cons_succ]
    exact h_answer

end

/-! ### From the extension to the host -/

/-- A message as the extension sends it. -/
def fromExtension (random : Vector UInt8 12) (text : Bytes) : Sent :=
  ⟨randomChunkId random, CHUNK_BYTES, text⟩

/-- The id is not empty. -/
theorem randomChunkId_ne (random : Vector UInt8 12) : randomChunkId random ≠ "" := by
  intro h
  have h_length := congrArg (fun s : String => s.toList.length) h
  simp [randomChunkId] at h_length

/-- A message that is not too long is encoded. -/
theorem encodeMessage_ok (digest : Bytes → Vector UInt8 32) (random : Vector UInt8 12)
    {text : Bytes} (h : text.length ≤ MAX_ASSEMBLED_BYTES) :
    encodeMessage digest random text = .ok ((fromExtension random text).frames digest) := by
  unfold encodeMessage
  by_cases h_short : text.length ≤ MAX_DIRECT_BYTES
  · rw [if_pos h_short, Sent.frames_of_not_chunked digest (m := fromExtension random text)
      (Nat.not_lt.mpr h_short)]
    rfl
  · rw [if_neg h_short, if_neg (Nat.not_lt.mpr h), Sent.frames_of_chunked digest
      (m := fromExtension random text) (Nat.not_le.mp h_short)]
    rfl

/-- What the extension encodes fits the host. -/
theorem fits_fromExtension (random : Vector UInt8 12) {text : Bytes} (h_text : Envelope text)
    (h : text.length ≤ MAX_ASSEMBLED_BYTES) : (fromExtension random text).Fits where
  envelope := h_text
  id_ne := randomChunkId_ne random
  size_pos := show 0 < CHUNK_BYTES by decide
  length := h
  total := by
    rintro -
    show (text.length + 512 * 1024 - 1) / (512 * 1024) ≤ 4096
    unfold MAX_ASSEMBLED_BYTES at h
    omega

/-- Frames that complete a message come at one place only. -/
theorem Interleaving.unique {ι : Type} {frames : ι → List Bytes} {arrivals : List (Arrival ι)}
    (h : Interleaving frames arrivals) (i : ι) {n n' : ℕ} {x x' : Arrival ι}
    (h_x : arrivals[n]? = some x) (h_i : x.message = i)
    (h_complete : Complete frames (arrivals.take (n + 1)) i)
    (h_x' : arrivals[n']? = some x') (h_i' : x'.message = i)
    (h_complete' : Complete frames (arrivals.take (n' + 1)) i) : n = n' := by
  -- After a complete message nothing more of it arrives.
  have h_le {n n' : ℕ} {x' : Arrival ι} (h_complete : Complete frames (arrivals.take (n + 1)) i)
      (h_x' : arrivals[n']? = some x') (h_i' : x'.message = i) : n' ≤ n := by
    by_contra h_lt
    obtain ⟨h_n', rfl⟩ := List.getElem?_eq_some_iff.mp h_x'
    have h_split : arrivals = arrivals.take n' ++ arrivals[n'] :: arrivals.drop (n' + 1) := by
      rw [List.getElem_cons_drop, List.take_append_drop]
    refine h.incomplete h_split fun k h_k => ?_
    rw [h_i'] at h_k
    obtain ⟨a, h_a, h_frame⟩ := h_complete k h_k
    refine ⟨a, ?_, h_frame.1.trans h_i'.symm, h_frame.2⟩
    exact List.take_subset_take_left arrivals (by omega) h_a
  exact Nat.le_antisymm (h_le h_complete' h_x h_i) (h_le h_complete h_x' h_i')

/-- A message is complete with one of its frames. -/
theorem Interleaving.exists_complete {ι : Type} {frames : ι → List Bytes}
    {arrivals : List (Arrival ι)} (h : Interleaving frames arrivals) {i : ι}
    (h_pos : 0 < (frames i).length) :
    ∃ n x, arrivals[n]? = some x ∧ x.message = i ∧ Complete frames (arrivals.take (n + 1)) i := by
  classical
  -- at the end everything has arrived
  have h_exists : ∃ n, Complete frames (arrivals.take n) i := by
    refine ⟨arrivals.length, ?_⟩
    rw [List.take_length]
    exact h.all i
  obtain ⟨n, h_n⟩ : ∃ n, Nat.find h_exists = n + 1 := by
    refine Nat.exists_eq_succ_of_ne_zero fun h_zero => ?_
    have h_none := Nat.find_spec h_exists
    rw [h_zero, List.take_zero] at h_none
    obtain ⟨a, h_a, -⟩ := h_none 0 h_pos
    cases h_a
  have h_complete : Complete frames (arrivals.take (n + 1)) i := h_n ▸ Nat.find_spec h_exists
  -- the first time at which the message is complete, so its frame has just come
  have h_before : ¬ Complete frames (arrivals.take n) i := Nat.find_min h_exists (by omega)
  have h_lt : n < arrivals.length := by
    by_contra h_ge
    rw [List.take_of_length_le (by omega)] at h_complete h_before
    exact h_before h_complete
  refine ⟨n, arrivals[n], List.getElem?_eq_getElem h_lt, ?_, h_complete⟩
  by_contra h_ne
  rw [List.take_succ_eq_append_getElem h_lt, complete_append_of_ne h_ne] at h_complete
  exact h_before h_complete

/-- **Messages of the extension reach the host.** The frame that completes a message is answered
with it, and every other frame with nothing; so each message is answered once. -/
theorem feed_encodeMessage {ι : Type} {digest : Bytes → Vector UInt8 32} {texts : ι → Bytes}
    {randoms : ι → Vector UInt8 12} {frames : ι → List Bytes} {arrivals : List (Arrival ι)}
    (h_texts : ∀ i, Envelope (texts i)) (h_length : ∀ i, (texts i).length ≤ MAX_ASSEMBLED_BYTES)
    (h_ids : Function.Injective fun i => randomChunkId (randoms i))
    (h_frames : ∀ i, encodeMessage digest (randoms i) (texts i) = .ok (frames i))
    (h : Interleaving frames arrivals) :
    (∀ (n : ℕ) (x : Arrival ι), arrivals[n]? = some x →
      (Complete frames (arrivals.take (n + 1)) x.message →
        (Assembler.feed digest (fun _ => none) (arrivals.map (wire frames)))[n]? =
          some (.ok (some (texts x.message)))) ∧
      (¬ Complete frames (arrivals.take (n + 1)) x.message →
        (Assembler.feed digest (fun _ => none) (arrivals.map (wire frames)))[n]? =
          some (.ok none))) ∧
    ∀ i : ι, ∃! n : ℕ, ∃ x : Arrival ι, arrivals[n]? = some x ∧ x.message = i ∧
      (Assembler.feed digest (fun _ => none) (arrivals.map (wire frames)))[n]? =
        some (.ok (some (texts i))) := by
  obtain rfl : frames = fun i => (fromExtension (randoms i) (texts i)).frames digest := by
    funext i
    exact Except.ok.inj ((h_frames i).symm.trans (encodeMessage_ok digest (randoms i) (h_length i)))
  have h_fits (i : ι) := fits_fromExtension (randoms i) (h_texts i) (h_length i)
  -- the answer at each place, from the frames before it
  have h_answers : ∀ (n : ℕ) (x : Arrival ι), arrivals[n]? = some x → ∃ answer,
      (Assembler.feed digest (fun _ => none) (arrivals.map
        (wire fun i => (fromExtension (randoms i) (texts i)).frames digest)))[n]? =
          some (.ok answer) ∧
      (Complete (fun i => (fromExtension (randoms i) (texts i)).frames digest)
        (arrivals.take (n + 1)) x.message → answer = some (texts x.message)) ∧
      (¬ Complete (fun i => (fromExtension (randoms i) (texts i)).frames digest)
        (arrivals.take (n + 1)) x.message → answer = none) := by
    intro n x h_x
    obtain ⟨h_n, rfl⟩ := List.getElem?_eq_some_iff.mp h_x
    have h_split : arrivals = arrivals.take n ++ arrivals[n] :: arrivals.drop (n + 1) := by
      rw [List.getElem_cons_drop, List.take_append_drop]
    have h_feed := feed_of_tracks h_ids h_fits h
      (List.nil_append _).symm Tracks.nil h_split
    rw [List.length_take_of_le h_n.le, List.nil_append,
      ← List.take_succ_eq_append_getElem h_n] at h_feed
    exact h_feed
  refine ⟨fun n x h_x => ?_, fun i => ?_⟩
  -- an answer is the message or nothing, as it is complete or not
  · obtain ⟨answer, h_answer, h_yes, h_no⟩ := h_answers n x h_x
    constructor
    · intro h_complete
      rw [h_answer, h_yes h_complete]
    · intro h_incomplete
      rw [h_answer, h_no h_incomplete]
  · -- A frame that is answered with a message completes it.
    have h_complete_of : ∀ (n : ℕ) (x : Arrival ι), arrivals[n]? = some x → x.message = i →
        (Assembler.feed digest (fun _ => none) (arrivals.map
          (wire fun i => (fromExtension (randoms i) (texts i)).frames digest)))[n]? =
            some (.ok (some (texts i))) →
        Complete (fun i => (fromExtension (randoms i) (texts i)).frames digest)
          (arrivals.take (n + 1)) i := by
      intro n x h_x h_i h_some
      subst h_i
      obtain ⟨answer, h_answer, -, h_no⟩ := h_answers n x h_x
      by_contra h_incomplete
      rw [h_answer, h_no h_incomplete] at h_some
      cases h_some
    have h_pos := (fromExtension (randoms i) (texts i)).length_frames_pos digest (h_fits i).size_pos
    obtain ⟨n, x, h_x, rfl, h_complete⟩ := h.exists_complete h_pos
    obtain ⟨answer, h_answer, h_yes, -⟩ := h_answers n x h_x
    refine ⟨n, ⟨x, h_x, rfl, by rw [h_answer, h_yes h_complete]⟩, ?_⟩
    rintro n' ⟨x', h_x', h_i', h_some'⟩
    exact h.unique x.message h_x' h_i' (h_complete_of n' x' h_x' h_i' h_some') h_x rfl h_complete

/-! ### Frames that arrive once -/

/-- Frames of any messages that arrive once each, all of them within some time of one another. -/
theorem interleaving_of_nodup {ι : Type} {frames : ι → List Bytes} {arrivals : List (Arrival ι)}
    (h_sent : ∀ a ∈ arrivals, a.frame < (frames a.message).length)
    (h_all : ∀ i, Complete frames arrivals i)
    (h_nodup : (arrivals.map fun a => (a.message, a.frame)).Nodup)
    (h_prompt : arrivals.Pairwise fun a b => a.time ≤ b.time ∧ b.time ≤ a.time + minute) :
    Interleaving frames arrivals where
  sorted := h_prompt.imp fun h => h.1
  sent := h_sent
  all := h_all
  incomplete := by
    intro before a after h_split h_complete
    -- The frame that comes now has not been there before.
    rw [h_split, List.map_append, List.map_cons] at h_nodup
    have h_a := h_sent a (h_split ▸ List.mem_append_right before List.mem_cons_self)
    obtain ⟨b, h_b, h_message, h_frame⟩ := h_complete a.frame h_a
    refine (List.nodup_append.mp h_nodup).2.2 (b.message, b.frame)
      (List.mem_map_of_mem h_b) (a.message, a.frame) List.mem_cons_self ?_
    rw [h_message, h_frame]
  prompt := by
    intro before a between b after h_split _ _
    rw [h_split, List.pairwise_append, List.pairwise_cons] at h_prompt
    exact (h_prompt.2.1.1 b (by simp)).2

/-- The frames of a message come within some time. -/
def Prompt (limit : ℕ) (order : List (ℕ × ℕ)) : Prop :=
  order.Pairwise fun a b => a.1 ≤ b.1 ∧ b.1 ≤ a.1 + limit

/-- A frame of the only message. -/
def arrival (p : ℕ × ℕ) : Arrival Unit := ⟨p.1, (), p.2⟩

/-- A list with one element picked out. -/
theorem map_split {α β : Type} (f : α → β) {l : List α} {i : ℕ} (h : i < l.length) :
    l.map f = (l.take i).map f ++ f l[i] :: (l.drop (i + 1)).map f := by
  rw [← List.map_cons, ← List.map_append, List.getElem_cons_drop, List.take_append_drop]

/-- The frames of one message are an interleaving. -/
theorem interleaving_of_perm {frames : List Bytes} {order : List (ℕ × ℕ)}
    (h_perm : (order.map Prod.snd).Perm (List.range frames.length))
    (h_prompt : Prompt minute order) :
    Interleaving (fun _ : Unit => frames) (order.map arrival) := by
  refine interleaving_of_nodup ?_ ?_ ?_ (List.pairwise_map.mpr h_prompt)
  · intro a h_a
    obtain ⟨p, h_p, rfl⟩ := List.mem_map.mp h_a
    exact List.mem_range.mp (h_perm.mem_iff.mp (List.mem_map_of_mem h_p))
  · intro _ k h_k
    obtain ⟨p, h_p, h_eq⟩ := List.mem_map.mp (h_perm.mem_iff.mpr (List.mem_range.mpr h_k))
    exact ⟨_, List.mem_map_of_mem h_p, rfl, h_eq⟩
  -- A permutation of distinct indices repeats none.
  · have h_nodup := h_perm.nodup_iff.mpr List.nodup_range
    rw [List.map_map]
    refine List.Nodup.of_map Prod.snd ?_
    rw [List.map_map]
    exact h_nodup

/-! ### Samples -/

/-- An empty object, and white space. -/
def paddedObject (n : ℕ) : Bytes := encodeUtf8 ('{' :: '}' :: List.replicate n ' ')

/-- How long the padded object is. -/
theorem length_paddedObject (n : ℕ) : (paddedObject n).length = n + 2 := by
  rw [paddedObject, length_encodeUtf8]
  · simp
  · intro c h_c
    rcases List.mem_cons.mp h_c with rfl | h_c
    · decide
    rcases List.mem_cons.mp h_c with rfl | h_c
    · decide
    · rw [List.eq_of_mem_replicate h_c]
      decide

/-- It is no chunk. -/
theorem envelope_paddedObject (n : ℕ) : Envelope (paddedObject n) := by
  have h_spaces (v : Json) : Reader.result maxNestingDepth ⟨.done v, []⟩ (List.replicate n ' ') =
      some v := by
    induction n with
    | zero => rfl
    | succ n ih =>
      rw [List.replicate_succ]
      exact (Reader.result_cons_some rfl).trans ih
  refine ⟨[], ?_, by simp⟩
  rw [parse, paddedObject, decodeUtf8_encodeUtf8]
  exact (Reader.result_cons_some rfl).trans ((Reader.result_cons_some rfl).trans (h_spaces _))

/-- A message in three chunks, which arrive in another order. -/
theorem feed_encodeMessage_outOfOrder : Envelope (paddedObject (1024 * 1024)) ∧
    ∀ (digest : Bytes → Vector UInt8 32) (random : Vector UInt8 12), ∃ frames,
      encodeMessage digest random (paddedObject (1024 * 1024)) = .ok frames ∧
      (Assembler.feed digest (fun _ => none) (([(0, 2), (5, 0), (7, 1)].map arrival).map
        (wire fun _ => frames)))[2]? = some (.ok (some (paddedObject (1024 * 1024)))) := by
  refine ⟨envelope_paddedObject _, fun digest random => ?_⟩
  have h_length : (paddedObject (1024 * 1024)).length ≤ MAX_ASSEMBLED_BYTES := by
    rw [length_paddedObject]
    decide
  have h_frames := encodeMessage_ok digest random h_length
  -- the object is cut into three chunks
  have h_three :
      ((fromExtension random (paddedObject (1024 * 1024))).frames digest).length = 3 := by
    have h_chunked : (fromExtension random (paddedObject (1024 * 1024))).Chunked := by
      show MaxHostToChrome < (paddedObject (1024 * 1024)).length
      rw [length_paddedObject]
      decide
    rw [Sent.frames_of_chunked digest h_chunked, List.length_map, List.length_range]
    show ((paddedObject (1024 * 1024)).length + 512 * 1024 - 1) / (512 * 1024) = 3
    rw [length_paddedObject]
  have h_inter : Interleaving
      (fun _ : Unit => (fromExtension random (paddedObject (1024 * 1024))).frames digest)
      ([(0, 2), (5, 0), (7, 1)].map arrival) := by
    refine interleaving_of_perm ?_ ?_
    · rw [h_three]
      decide
    · unfold Prompt minute
      simp
  obtain ⟨h_answers, -⟩ := feed_encodeMessage (fun _ => envelope_paddedObject _) (fun _ => h_length)
    (fun _ _ _ => rfl) (fun _ => h_frames) h_inter
  exact ⟨_, h_frames, (h_answers 2 (arrival (7, 1)) rfl).1 (h_inter.all ())⟩

/-- Arrays in arrays. -/
def nested : ℕ → Json
  | 0 => .arr []
  | n + 1 => .arr [nested n]

/-- Nested lists can be read with as many levels. -/
theorem readable_nested (n : ℕ) : Reader.Readable (nested n) (n + 1) := by
  induction n with
  | zero => exact ⟨by decide, trivial⟩
  | succ n ih => exact ⟨by omega, ih, trivial⟩

/-- How long they are. -/
theorem length_nested (n : ℕ) : (nested n).encode.length = 2 * (n + 1) ∧
    ∀ c ∈ (nested n).encode, c.utf8Size = 1 := by
  induction n with
  | zero => decide
  | succ n ih =>
    -- One more level is one bracket on each side.
    have h_text : (nested (n + 1)).encode = '[' :: ((nested n).encode ++ [']']) := rfl
    rw [h_text]
    constructor
    · rw [List.length_cons, List.length_append, ih.1, List.length_singleton]
      omega
    · intro c h_c
      rcases List.mem_cons.mp h_c with rfl | h_c
      · decide
      rcases List.mem_append.mp h_c with h_c | h_c
      · exact ih.2 c h_c
      · rw [List.mem_singleton.mp h_c]
        decide

/-- Arrays that are nested too deep are not read. -/
theorem result_nested {limit : ℕ} (n : ℕ) {stack : List Reader.Frame} (x : List Char)
    (h_stack : stack.length ≤ limit) (h : limit < stack.length + (n + 1)) :
    Reader.result limit ⟨.value, stack⟩ ((nested n).encode ++ x) = none := by
  induction n generalizing stack x with
  -- the innermost array is beyond the limit
  | zero =>
    have h_text : (nested 0).encode ++ x = '[' :: ']' :: x := rfl
    have h_step : Reader.step limit ⟨.value, stack⟩ '[' = none := by
      show (if stack.length < limit then _ else none) = _
      rw [if_neg (by omega)]
    rw [h_text, Reader.result_cons, h_step]
    rfl
  | succ n ih =>
    have h_text : (nested (n + 1)).encode ++ x = '[' :: ((nested n).encode ++ (']' :: x)) := by
      rw [List.append_cons]
      rfl
    rw [h_text]
    -- this array is still within the limit, or the first one beyond
    by_cases h_lt : stack.length < limit
    · have h_step : Reader.step limit ⟨.value, stack⟩ '[' = some ⟨.element, .arr [] :: stack⟩ := by
        show (if stack.length < limit then _ else none) = _
        rw [if_pos h_lt]
      rw [Reader.result_cons_some h_step, Reader.result_element]
      exact ih _ h_lt (by rw [List.length_cons]; omega)
    · have h_step : Reader.step limit ⟨.value, stack⟩ '[' = none := by
        show (if stack.length < limit then _ else none) = _
        rw [if_neg h_lt]
      rw [Reader.result_cons, h_step]
      rfl

/-- A notification with arrays in arrays. -/
def deepTree (n : ℕ) : Json :=
  .obj [("params", nested n), ("jsonrpc", .str "2.0"), ("method", .str "event")]

/-- A message with nested lists. -/
def deepMessage (n : ℕ) : Bytes := encodeUtf8 (deepTree n).encode

/-- The extension parses it. -/
theorem jsonParse_deepMessage {n : ℕ} (h : n + 2 ≤ (deepMessage n).length + maxNestingDepth) :
    jsonParse (deepMessage n) = some (deepTree n) := by
  have h_readable : Reader.Readable (deepTree n) (n + 2) :=
    ⟨Nat.succ_pos _, readable_nested n, trivial, trivial, trivial⟩
  have h_read := Reader.read_encode h_readable
  rw [← decodeUtf8_encodeUtf8 (Json.encode _)] at h_read
  exact Reader.read_mono h h_read

/-- The host does not. -/
theorem parse_deepMessage {n : ℕ} (h : maxNestingDepth < n + 2) : parse (deepMessage n) = none := by
  -- The object and the member before the arrays take one level.
  have h_member : Reader.step maxNestingDepth ⟨.value, []⟩ '{' =
      some ⟨.member, [.obj [] ""]⟩ := rfl
  have h_colon : Reader.step maxNestingDepth ⟨.colon, [.obj [] "params"]⟩ ':' =
      some ⟨.value, [.obj [] "params"]⟩ := rfl
  have h_text : (deepTree n).encode = '{' :: (quote "params" ++
      (':' :: ((nested n).encode ++ encodeMoreFields [("jsonrpc", .str "2.0"),
        ("method", .str "event")]))) := by
    rw [deepTree, Json.encode, encodeFields, encodeField, List.append_assoc, List.cons_append]
  have h_one : ([.obj [] "params"] : List Reader.Frame).length = 1 := rfl
  rw [parse, deepMessage, decodeUtf8_encodeUtf8, h_text]
  refine (Reader.result_cons_some h_member).trans ?_
  rw [Reader.result_quote_name maxNestingDepth (.inl rfl), Reader.result_cons_some h_colon]
  refine result_nested n _ ?_ ?_
  · rw [h_one]
    decide
  · rw [h_one]
    omega

/-- How long it is. -/
theorem length_deepMessage (n : ℕ) : (deepMessage n).length = 2 * n + 46 := by
  have h_nested : (encodeUtf8 (nested n).encode).length = 2 * (n + 1) := by
    rw [length_encodeUtf8 (length_nested n).2, (length_nested n).1]
  have h_words : (encodeUtf8 (quote "params")).length = 8 ∧
      (encodeUtf8 (encodeMoreFields
        [("jsonrpc", .str "2.0"), ("method", .str "event")])).length = 34 ∧
      '{'.utf8Size = 1 ∧ ':'.utf8Size = 1 := by decide
  obtain ⟨h_name, h_rest, h_open, h_colon⟩ := h_words
  rw [deepMessage, deepTree, Json.encode, encodeFields, encodeField, length_encodeUtf8_cons,
    length_encodeUtf8_append, length_encodeUtf8_append, length_encodeUtf8_cons]
  omega

/-- The extension sends a deep message as it is, and the host does not take it. -/
theorem feed_deepMessage {n : ℕ} (h_deep : maxNestingDepth < n + 2)
    (h_short : 2 * n + 46 ≤ MAX_DIRECT_BYTES) (digest : Bytes → Vector UInt8 32)
    (random : Vector UInt8 12) :
    encodeMessage digest random (deepMessage n) = .ok [deepMessage n] ∧
      Assembler.feed digest (fun _ => none) [(0, deepMessage n)] =
        [.error "native message is not valid JSON"] := by
  constructor
  · exact if_pos ((length_deepMessage n).le.trans h_short)
  · rw [Assembler.feed, Assembler.accept, parse_deepMessage h_deep]
    rfl

/-- There is a message that does not reach the host: it is nested deeper than `encoding/json`
reads. -/
theorem not_feed_encodeMessage_deep :
    jsonParse (deepMessage 10000) = some (deepTree 10000) ∧
    (deepMessage 10000).length ≤ MAX_ASSEMBLED_BYTES ∧
    ∀ (digest : Bytes → Vector UInt8 32) (random : Vector UInt8 12),
      encodeMessage digest random (deepMessage 10000) = .ok [deepMessage 10000] ∧
      Assembler.feed digest (fun _ => none) [(0, deepMessage 10000)] =
        [.error "native message is not valid JSON"] := by
  have h_deep : maxNestingDepth < 10000 + 2 := by decide
  have h_short : 2 * 10000 + 46 ≤ MAX_DIRECT_BYTES := by decide
  have h_length := length_deepMessage 10000
  refine ⟨jsonParse_deepMessage ?_, ?_, fun digest random => feed_deepMessage h_deep h_short ..⟩
  · rw [h_length]
    decide
  · rw [h_length]
    decide

end BrowserControl.NativeMessaging
