import BrowserControl.NativeMessaging.Chunk

/-!
# Frames on the native messaging pipe

A frame is the length of a message in four bytes, of which the lowest comes first, and then the
message. `writeFrame` is `WriteFrame`, and its result is what the writer has been given; `readFrame`
is `ReadFrame`, and takes a frame from the front of the bytes that the reader still has.

`readFrames_writeFrames` is about streams of any length: whole ones, and those that end early,
between two frames, within a length or within a message.
-/

namespace BrowserControl.NativeMessaging

/-! ### The length -/

/-- `binary.LittleEndian.PutUint32` -/
def putUint32 (n : ℕ) : Bytes :=
  [.ofNat n, .ofNat (n / 2 ^ 8), .ofNat (n / 2 ^ 16), .ofNat (n / 2 ^ 24)]

/-- `binary.LittleEndian.Uint32` -/
def uint32 : Bytes → ℕ
  | [b₀, b₁, b₂, b₃] =>
    b₀.toNat + b₁.toNat * 2 ^ 8 + b₂.toNat * 2 ^ 16 + b₃.toNat * 2 ^ 24
  | _ => 0

@[simp] theorem length_putUint32 (n : ℕ) : (putUint32 n).length = 4 := rfl

/-- A length of 32 bits is read back. -/
theorem uint32_putUint32 {n : ℕ} (h : n < 2 ^ 32) : uint32 (putUint32 n) = n := by
  simp only [putUint32, uint32, UInt8.toNat_ofNat']
  omega

/-! ### Reading and writing -/

/-- Why nothing more is read. -/
inductive ReadError where
  /-- `io.EOF` -/
  | eof
  /-- `io.ErrUnexpectedEOF` -/
  | unexpectedEOF
  /-- The length of a message is outside the allowed range. -/
  | outOfRange (length : ℕ)
  deriving DecidableEq

/-- `io.ReadFull`: the next `n` bytes, and the rest. -/
def readFull (n : ℕ) (stream : Bytes) : Except ReadError (Bytes × Bytes) :=
  if n ≤ stream.length then .ok (stream.take n, stream.drop n)
  else if stream = [] then .error .eof
  else .error .unexpectedEOF

/-- What `ReadFrame` does when it has read the length. -/
def readMessage (maxBytes length : ℕ) (stream : Bytes) : Except ReadError (Bytes × Bytes) :=
  if length = 0 ∨ length > maxBytes then .error (.outOfRange length) else readFull length stream

/-- `ReadFrame` -/
def readFrame (maxBytes : ℕ) (stream : Bytes) : Except ReadError (Bytes × Bytes) := do
  let (length, stream) ← readFull 4 stream
  readMessage maxBytes (uint32 length) stream

/-- `WriteFrame` -/
def writeFrame (frame : Bytes) : Except String Bytes :=
  if frame.length = 0 ∨ frame.length > MaxHostToChrome then
    .error ("native message size " ++ toString frame.length ++ " is outside allowed range")
  else .ok (putUint32 frame.length ++ frame)

/-- Frames that are written one after the other. -/
def writeFrames : List Bytes → Except String Bytes
  | [] => .ok []
  | frame :: frames => do
    let written ← writeFrame frame
    let rest ← writeFrames frames
    return written ++ rest

theorem readFull_append {bytes : Bytes} (rest : Bytes) :
    readFull bytes.length (bytes ++ rest) = .ok (bytes, rest) := by
  have h_le : bytes.length ≤ (bytes ++ rest).length := by
    rw [List.length_append]
    exact Nat.le_add_right ..
  rw [readFull, if_pos h_le, List.take_left, List.drop_left]

/-- What is read, and what is left. -/
theorem readFull_ok_iff {n : ℕ} {stream read rest : Bytes} :
    readFull n stream = .ok (read, rest) ↔ read ++ rest = stream ∧ read.length = n := by
  constructor
  · intro h
    unfold readFull at h
    split_ifs at h with h_le
    cases h
    exact ⟨List.take_append_drop .., List.length_take_of_le h_le⟩
  · rintro ⟨rfl, rfl⟩
    exact readFull_append rest

/-- What is left after a frame is shorter. -/
theorem length_of_readFrame {maxBytes : ℕ} {stream frame rest : Bytes}
    (h : readFrame maxBytes stream = .ok (frame, rest)) : rest.length < stream.length := by
  unfold readFrame at h
  cases h_four_bytes : readFull 4 stream with
  | error e =>
    rw [h_four_bytes] at h
    cases h
  | ok split =>
    rw [h_four_bytes] at h
    simp only [bind, Except.bind, readMessage] at h
    split_ifs at h with h_range
    -- Four bytes of the length are always taken.
    obtain ⟨h_stream, h_four⟩ := readFull_ok_iff.mp h_four_bytes
    obtain ⟨h_tail, -⟩ := readFull_ok_iff.mp h
    have h_stream' := congrArg List.length h_stream
    have h_tail' := congrArg List.length h_tail
    rw [List.length_append] at h_stream' h_tail'
    omega

/-- Frames are read until there is an error. -/
def readFrames (maxBytes : ℕ) (stream : Bytes) : List Bytes × ReadError :=
  match h : readFrame maxBytes stream with
  | .error e => ([], e)
  | .ok (frame, rest) =>
    have := length_of_readFrame h
    (frame :: (readFrames maxBytes rest).1, (readFrames maxBytes rest).2)
termination_by stream.length

/-- The loop ends with the first error. -/
theorem readFrames_of_error {maxBytes : ℕ} {stream : Bytes} {e : ReadError}
    (h : readFrame maxBytes stream = .error e) : readFrames maxBytes stream = ([], e) := by
  rw [readFrames]
  split
  case h_1 e' h' =>
    rw [h] at h'
    cases h'
    rfl
  case h_2 h' =>
    rw [h] at h'
    cases h'

/-- After a frame the loop goes on. -/
theorem readFrames_of_ok {maxBytes : ℕ} {stream frame rest : Bytes}
    (h : readFrame maxBytes stream = .ok (frame, rest)) :
    readFrames maxBytes stream =
      (frame :: (readFrames maxBytes rest).1, (readFrames maxBytes rest).2) := by
  rw [readFrames]
  split
  case h_1 h' =>
    rw [h] at h'
    cases h'
  case h_2 frame' rest' h' =>
    rw [h] at h'
    cases h'
    rfl

/-! ### What is written is read back -/

/-- A frame on the pipe. -/
def framed (frame : Bytes) : Bytes := putUint32 frame.length ++ frame

/-- A frame of a proper length is written. -/
theorem writeFrame_ok {frame : Bytes} (h : 1 ≤ frame.length ∧ frame.length ≤ MaxHostToChrome) :
    writeFrame frame = .ok (framed frame) := by
  rw [writeFrame, if_neg (by omega), framed]

theorem writeFrames_ok {frames : List Bytes}
    (h : ∀ frame ∈ frames, 1 ≤ frame.length ∧ frame.length ≤ MaxHostToChrome) :
    writeFrames frames = .ok (frames.flatMap framed) := by
  induction frames with
  | nil => rfl
  | cons frame frames ih =>
    rw [List.forall_mem_cons] at h
    rw [writeFrames, writeFrame_ok h.1, ih h.2]
    rfl

variable {maxBytes : ℕ} {frame : Bytes}

/-- The length of a frame fits into 32 bits. -/
theorem length_lt (h : frame.length ≤ MaxHostToChrome) : frame.length < 2 ^ 32 := by
  have h_limit : MaxHostToChrome < 2 ^ 32 := by decide
  exact h.trans_lt h_limit

/-- After the length comes the message. -/
theorem readFrame_of_readFull {stream length rest : Bytes}
    (h : readFull 4 stream = .ok (length, rest)) :
    readFrame maxBytes stream = readMessage maxBytes (uint32 length) rest := by
  rw [readFrame, h]
  rfl

/-- The length of a frame is read first. -/
theorem readFrame_putUint32 (h : 1 ≤ frame.length ∧ frame.length ≤ MaxHostToChrome)
    (h_max : frame.length ≤ maxBytes) (stream : Bytes) :
    readFrame maxBytes (putUint32 frame.length ++ stream) = readFull frame.length stream := by
  have h_four_bytes : readFull 4 (putUint32 frame.length ++ stream) =
      .ok (putUint32 frame.length, stream) := by
    rw [← length_putUint32 frame.length, readFull_append]
  have h_range : ¬ (frame.length = 0 ∨ frame.length > maxBytes) :=
    not_or.mpr ⟨Nat.one_le_iff_ne_zero.mp h.1, h_max.not_gt⟩
  rw [readFrame_of_readFull h_four_bytes, uint32_putUint32 (length_lt h.2), readMessage,
    if_neg h_range]

/-- The first frame of a stream is read, and the others are left. -/
theorem readFrame_framed (h : 1 ≤ frame.length ∧ frame.length ≤ MaxHostToChrome)
    (h_max : frame.length ≤ maxBytes) (rest : Bytes) :
    readFrame maxBytes (framed frame ++ rest) = .ok (frame, rest) := by
  rw [framed, List.append_assoc, readFrame_putUint32 h h_max, readFull_append]

/-- What is cut off from two texts ends within the first one, or has it in front. -/
theorem prefix_append_cases {α : Type*} {cut l r : List α} (h : cut <+: l ++ r) :
    cut <+: l ∨ ∃ rest, cut = l ++ rest ∧ rest <+: r := by
  refine (List.prefix_or_prefix_of_prefix h (List.prefix_append l r)).imp_right ?_
  rintro ⟨rest, rfl⟩
  exact ⟨rest, rfl, (List.prefix_append_right_inj l).mp h⟩

/-- The stream ends where there is more to read. -/
def ReadError.IsEnd (e : ReadError) : Prop := e = .eof ∨ e = .unexpectedEOF

/-- A stream that is too short is at its end. -/
theorem readFull_short {n : ℕ} {stream : Bytes} (h : stream.length < n) :
    ∃ e, readFull n stream = .error e ∧ e.IsEnd := by
  rw [readFull, if_neg h.not_ge]
  by_cases h_empty : stream = []
  · rw [if_pos h_empty]
    exact ⟨.eof, rfl, .inl rfl⟩
  · rw [if_neg h_empty]
    exact ⟨.unexpectedEOF, rfl, .inr rfl⟩

theorem readFrame_nil : readFrame maxBytes [] = .error .eof := rfl

/-- A frame that is cut off is not read. -/
theorem readFrame_cut (h : 1 ≤ frame.length ∧ frame.length ≤ MaxHostToChrome)
    (h_max : frame.length ≤ maxBytes) {cut : Bytes} (h_cut : cut <+: framed frame)
    (h_ne : cut ≠ framed frame) : ∃ e, readFrame maxBytes cut = .error e ∧ e.IsEnd := by
  obtain h_length | ⟨payload, rfl, h_payload⟩ := prefix_append_cases h_cut
  · -- It ends within the length, or right behind it.
    obtain h_short | h_eq := h_length.length_le.lt_or_eq
    · obtain ⟨e, h_error, h_end⟩ := readFull_short (n := 4) h_short
      refine ⟨e, ?_, h_end⟩
      rw [readFrame, h_error]
      rfl
    · rw [h_length.eq_of_length h_eq, ← List.append_nil (putUint32 frame.length),
        readFrame_putUint32 h h_max]
      exact readFull_short h.1
  · rw [readFrame_putUint32 h h_max]
    refine readFull_short (h_payload.length_le.lt_of_ne ?_)
    intro h_eq
    rw [h_payload.eq_of_length h_eq] at h_ne
    exact h_ne rfl

/-- A stream that is cut off ends within one of its frames, or in front of it. -/
theorem readFrames_cut {frames : List Bytes}
    (h : ∀ frame ∈ frames, 1 ≤ frame.length ∧ frame.length ≤ MaxHostToChrome)
    (h_max : ∀ frame ∈ frames, frame.length ≤ maxBytes) {cut : Bytes}
    (h_cut : cut <+: frames.flatMap framed) (h_ne : cut ≠ frames.flatMap framed) :
    (readFrames maxBytes cut).1 <+: frames ∧ (readFrames maxBytes cut).1 ≠ frames ∧
      (readFrames maxBytes cut).2.IsEnd := by
  induction frames generalizing cut with
  | nil => exact absurd (List.prefix_nil.mp h_cut) h_ne
  | cons frame frames ih =>
    rw [List.forall_mem_cons] at h h_max
    rw [List.flatMap_cons] at h_cut h_ne
    -- the cut falls into the first frame, or behind it
    by_cases h_within : cut <+: framed frame ∧ cut ≠ framed frame
    · obtain ⟨e, h_error, h_end⟩ := readFrame_cut h.1 h_max.1 h_within.1 h_within.2
      rw [readFrames_of_error h_error]
      exact ⟨List.nil_prefix, List.cons_ne_nil _ _ |>.symm, h_end⟩
    · -- The first frame is whole, and the others are cut off.
      obtain ⟨rest, rfl, h_rest⟩ : ∃ rest, cut = framed frame ++ rest ∧
          rest <+: frames.flatMap framed := by
        obtain h_first | h_more := prefix_append_cases h_cut
        · refine ⟨[], ?_, List.nil_prefix⟩
          rw [List.append_nil]
          exact not_not.mp fun h_not => h_within ⟨h_first, h_not⟩
        · exact h_more
      obtain ⟨h_begin, h_fewer, h_end⟩ := ih h.2 h_max.2 h_rest fun h_eq => h_ne (by rw [h_eq])
      rw [readFrames_of_ok (readFrame_framed h.1 h_max.1 rest)]
      exact ⟨(List.prefix_cons_inj frame).mpr h_begin, fun h_eq => h_fewer (List.cons.inj h_eq).2,
        h_end⟩

/-- **Frames are read as they were written.** The stream of frames that may be written is read as
these frames, and then it is at its end. Wherever it is cut off, some of the frames are read, from
the first one on, and then there is an error. -/
theorem readFrames_writeFrames {frames : List Bytes}
    (h : ∀ frame ∈ frames, 1 ≤ frame.length ∧ frame.length ≤ MaxHostToChrome)
    (h_max : ∀ frame ∈ frames, frame.length ≤ maxBytes) :
    ∃ stream, writeFrames frames = .ok stream ∧ readFrames maxBytes stream = (frames, .eof) ∧
      ∀ cut, cut <+: stream → cut ≠ stream →
        (readFrames maxBytes cut).1 <+: frames ∧ (readFrames maxBytes cut).1 ≠ frames ∧
          (readFrames maxBytes cut).2.IsEnd := by
  refine ⟨frames.flatMap framed, writeFrames_ok h, ?_, fun cut => readFrames_cut h h_max⟩
  induction frames with
  | nil => exact readFrames_of_error readFrame_nil
  | cons frame frames ih =>
    rw [List.forall_mem_cons] at h h_max
    rw [List.flatMap_cons, readFrames_of_ok (readFrame_framed h.1 h_max.1 _), ih h.2 h_max.2]

/-- Two frames and the limit of one mebibyte. -/
theorem readFrames_writeFrames_two :
    ∃ stream, writeFrames [[123, 125], [49]] = .ok stream ∧
      readFrames MaxHostToChrome stream = ([[123, 125], [49]], .eof) ∧
      ∀ cut, cut <+: stream → cut ≠ stream →
        (readFrames MaxHostToChrome cut).1 <+: [[123, 125], [49]] ∧
          (readFrames MaxHostToChrome cut).1 ≠ [[123, 125], [49]] ∧
          (readFrames MaxHostToChrome cut).2.IsEnd :=
  readFrames_writeFrames (by decide) (by decide)

end BrowserControl.NativeMessaging
