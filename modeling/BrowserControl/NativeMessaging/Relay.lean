import BrowserControl.Encoding.Stream
import BrowserControl.NativeMessaging.Decodable
import BrowserControl.NativeMessaging.Frame

/-!
# The relay of the native host

`Relay` has a goroutine for each direction. One reads frames of Chrome, puts messages together and
writes each of them to the daemon, with a line break behind it; the other decodes values of the
daemon, cuts them into frames and writes these to Chrome. At the ends stand the decoder of the
daemon and the assembler of the extension.

What the daemon gets is a stream in which nothing but the syntax of JSON says where a message
ends. `decodeAll_relayFromChrome`: whatever Chrome sends, the daemon decodes the messages that have
been put together, each of them once and in their order. `relayFromChrome_delivers` and
`relayFromChrome_cut` are about the messages of the extension, all of them or up to where a pipe is
cut, and `relayToChrome_delivers` is about those of the daemon.
-/

namespace BrowserControl.NativeMessaging.Relay

open Encoding Encoding.Scanner

variable (digest : Bytes → Vector UInt8 32)

/-- The longest frame that the host reads. -/
def MaxChromeToHost : ℕ := 64 * 1024 * 1024

/-! ### From Chrome to the daemon -/

/-- Why a goroutine returns. -/
inductive RelayError where
  | read (e : NativeMessaging.ReadError)
  | accept (e : String)
  | decode (e : Scanner.ReadError)
  | encode (e : String)
  | write (e : String)

/-- The first goroutine: what it writes to the daemon, and why it returns. The frames that it reads
come with the times at which they are accepted, and `e` is what `ReadFrame` returns after them. -/
def relayIn (e : NativeMessaging.ReadError) (a : Assembler) : List (ℕ × Bytes) → Bytes × RelayError
  | [] => ([], .read e)
  | frame :: frames =>
    match a.accept digest frame.1 frame.2 with
    | (.error e, _) => ([], .accept e)
    | (.ok none, a) => relayIn e a frames
    | (.ok (some message), a) =>
      (message ++ newline :: (relayIn e a frames).1, (relayIn e a frames).2)

/-- The messages among the answers to some frames, up to the first error. -/
def completed : List (Except String (Option Bytes)) → List Bytes
  | [] => []
  | .error _ :: _ => []
  | .ok none :: answers => completed answers
  | .ok (some message) :: answers => message :: completed answers

/-- What is written are the messages that have been put together. -/
theorem relayIn_eq (e : NativeMessaging.ReadError) (a : Assembler) (frames : List (ℕ × Bytes)) :
    (relayIn digest e a frames).1 = lines (completed (a.feed digest frames)) := by
  induction frames generalizing a with
  | nil => rfl
  | cons frame frames ih =>
    rw [relayIn, Assembler.feed]
    rcases h_accept : a.accept digest frame.1 frame.2 with ⟨answer, a'⟩
    cases answer with
    | error e => rfl
    | ok answer =>
      cases answer with
      | none => exact ih a'
      | some message =>
        show message ++ newline :: (relayIn digest e a' frames).1 = _
        rw [ih a', completed, lines_cons]

/-- What is put together was checked. -/
theorem valid_of_settle {a : Assembler} {c : Chunk} {item : Assembly} {message : Bytes}
    (h : (a.settle digest c item).1 = .ok (some message)) : valid message = true := by
  unfold Assembler.settle at h
  split_ifs at h with h_size h_length
  case pos => cases h
  split at h
  case h_1 => cases h
  case h_2 parts _ =>
    change checkResult digest c.sha256 parts.flatten = _ at h
    unfold checkResult at h
    split_ifs at h with h_digest h_valid
    cases h
    exact h_valid

/-- What is put together is a JSON text. -/
theorem valid_of_accept {a : Assembler} {now : ℕ} {frame message : Bytes}
    (h : (a.accept digest now frame).1 = .ok (some message)) : valid message = true := by
  unfold Assembler.accept at h
  split at h
  case h_1 => cases h
  -- a plain message was parsed, a chunked one was checked when it was complete
  case h_2 value h_parse =>
    split at h
    case h_1 => cases h
    case h_2 =>
      cases h
      rw [valid, h_parse]
      rfl
    case h_3 c _ =>
      split_ifs at h
      split at h
      case h_1 => cases h
      case h_2 part _ =>
        unfold Assembler.acceptPart at h
        split_ifs at h
        exact valid_of_settle digest h

/-- So is everything that is relayed. -/
theorem valid_of_completed {a : Assembler} {frames : List (ℕ × Bytes)} {message : Bytes}
    (h : message ∈ completed (a.feed digest frames)) : valid message = true := by
  induction frames generalizing a with
  | nil => cases h
  | cons frame frames ih =>
    rw [Assembler.feed] at h
    -- Along the frames; a message is checked before it is handed on.
    cases h_answer : (a.accept digest frame.1 frame.2).1 with
    | error e =>
      rw [h_answer] at h
      cases h
    | ok answer =>
      rw [h_answer] at h
      cases answer with
      | none => exact ih h
      | some message' =>
        rcases List.mem_cons.mp h with rfl | h
        · exact valid_of_accept digest h_answer
        · exact ih h

/-- The first goroutine over what Chrome has written. Its frames are accepted at these times. -/
def relayFromChrome (times : List ℕ) (chromeIn : Bytes) : Bytes × RelayError :=
  relayIn digest (readFrames MaxChromeToHost chromeIn).2 (fun _ => none)
    (times.zip (readFrames MaxChromeToHost chromeIn).1)

/-- **No message is more than one.** Whatever Chrome writes, the daemon decodes the messages that
have been put together, up to the first frame that is refused: each of them once and in their order,
and nothing else. -/
theorem decodeAll_relayFromChrome (times : List ℕ) (chromeIn : Bytes) :
    ∃ raws, decodeAll maxNestingDepth (relayFromChrome digest times chromeIn).1 = (raws, .eof) ∧
      List.Forall₂ Padded (completed (Assembler.feed digest (fun _ => none)
        (times.zip (readFrames MaxChromeToHost chromeIn).1))) raws := by
  rw [relayFromChrome, relayIn_eq]
  exact decodeAll_lines fun message h_message => valid_of_completed digest h_message

/-! ### The messages of the extension -/

section

variable {ι : Type} {frames : ι → List Bytes} {arrivals : List (Arrival ι)}

/-- The messages in the order in which their last frames arrive. -/
structure Completes (frames : ι → List Bytes) (arrivals : List (Arrival ι)) (order : List ι) :
    Prop where
  nodup : order.Nodup
  all : ∀ i, i ∈ order
  sorted : order.Pairwise fun i j => ∃ n, Complete frames (arrivals.take n) i ∧
    ¬ Complete frames (arrivals.take n) j

variable {messages : ι → Sent} {digest}

/-- The messages that are completed by the frames that are still to come. -/
theorem completed_of_tracks (h_ids : Function.Injective fun i => (messages i).id)
    (h_fits : ∀ i, (messages i).Fits)
    (h : Interleaving (fun i => (messages i).frames digest) arrivals) {hist rest : List (Arrival ι)}
    (h_arrivals : arrivals = hist ++ rest) {a : Assembler}
    (h_tracks : Tracks digest messages hist a) :
    ∃ order : List ι, order.Nodup ∧
      (∀ i, i ∈ order ↔ ¬ Complete (fun i => (messages i).frames digest) hist i) ∧
      (order.Pairwise fun i j => ∃ n,
        Complete (fun i => (messages i).frames digest) (arrivals.take n) i ∧
          ¬ Complete (fun i => (messages i).frames digest) (arrivals.take n) j) ∧
      completed (a.feed digest (rest.map (wire fun i => (messages i).frames digest))) =
        order.map (fun i => (messages i).text) ∧
      ∀ e, (relayIn digest e a (rest.map (wire fun i => (messages i).frames digest))).2 =
        .read e := by
  -- on the frames that are still to come
  induction rest generalizing hist a with
  | nil =>
    refine ⟨[], List.nodup_nil, fun i => ?_, .nil, rfl, fun e => rfl⟩
    have h_all := h.all i
    rw [h_arrivals, List.append_nil] at h_all
    exact ⟨fun h_mem => absurd h_mem List.not_mem_nil, fun h_not => absurd h_all h_not⟩
  | cons x rest ih =>
    obtain ⟨answer, a', h_accept, h_tracks', h_yes, h_no⟩ := h_tracks.step h_ids h_fits h h_arrivals
    obtain ⟨order, h_nodup, h_mem, h_sorted, h_completed, h_end⟩ :=
      ih (by simpa using h_arrivals) h_tracks'
    have h_new : ¬ Complete (fun i => (messages i).frames digest) hist x.message :=
      h.incomplete h_arrivals
    have h_read : ∀ e, (relayIn digest e a
        ((x :: rest).map (wire fun i => (messages i).frames digest))).2 = .read e := by
      intro e
      rw [List.map_cons, relayIn, h_accept]
      cases answer with
      | none => exact h_end e
      | some message => exact h_end e
    rw [List.map_cons, Assembler.feed, h_accept]
    dsimp only
    by_cases h_complete : Complete (fun i => (messages i).frames digest) (hist ++ [x]) x.message
    · -- The message of this frame comes first, and the others are completed later.
      refine ⟨x.message :: order, ?_, fun i => ?_, ?_, ?_, h_read⟩
      · exact List.nodup_cons.mpr ⟨fun h_x => (h_mem _).mp h_x h_complete, h_nodup⟩
      · rw [List.mem_cons, h_mem]
        by_cases h_i : x.message = i
        · subst h_i
          exact iff_of_true (.inl rfl) h_new
        · rw [complete_append_of_ne h_i]
          exact or_iff_right fun h_eq => h_i h_eq.symm
      · refine List.pairwise_cons.mpr ⟨fun j h_j => ⟨hist.length + 1, ?_⟩, h_sorted⟩
        have h_take : arrivals.take (hist.length + 1) = hist ++ [x] := by
          rw [h_arrivals, List.take_append, List.take_of_length_le (by omega)]
          simp
        rw [h_take]
        exact ⟨h_complete, (h_mem j).mp h_j⟩
      · rw [h_yes h_complete, completed, h_completed, List.map_cons]
    -- otherwise nothing is written for this frame
    · refine ⟨order, h_nodup, fun i => ?_, h_sorted, ?_, h_read⟩
      · rw [h_mem]
        by_cases h_i : x.message = i
        · subst h_i
          exact iff_of_true h_complete h_new
        · rw [complete_append_of_ne h_i]
      · rw [h_no h_complete, completed, h_completed]

end

/-- What can be read is not empty. -/
theorem ne_nil_of_valid {text : Bytes} (h : valid text = true) : 1 ≤ text.length := by
  cases text with
  | nil => exact absurd h (by decide)
  | cons b text => exact Nat.succ_pos _

/-- The id of a message is plain text. -/
theorem plain_randomChunkId (random : Vector UInt8 12) :
    (randomChunkId random).toList.length ≤ 100 ∧
      ∀ c ∈ (randomChunkId random).toList, c ∉ escaped ∧ c.utf8Size = 1 := by
  have h_toList : (randomChunkId random).toList =
      ['c', 'h', 'u', 'n', 'k', '_'] ++ hex random.toList := by
    rw [randomChunkId, String.toList_append, String.toList_ofList, String.toList_ofList]
  have h_plain : ∀ c ∈ ['c', 'h', 'u', 'n', 'k', '_'], c ∉ escaped ∧ c.utf8Size = 1 := by decide
  rw [h_toList]
  refine ⟨?_, fun c h_c => ?_⟩
  · rw [List.length_append, length_hex, Vector.length_toList]
    decide
  · rcases List.mem_append.mp h_c with h_c | h_c
    · exact h_plain c h_c
    · exact plain_hexDigits c (mem_hexDigits h_c)

/-- The frames of the extension fit the pipe. -/
theorem length_of_mem_frames {digest : Bytes → Vector UInt8 32} {random : Vector UInt8 12}
    {text frame : Bytes} (h_text : Envelope text) (h_length : text.length ≤ MAX_ASSEMBLED_BYTES)
    (h : frame ∈ (fromExtension random text).frames digest) :
    1 ≤ frame.length ∧ frame.length ≤ MaxHostToChrome := by
  by_cases h_chunked : (fromExtension random text).Chunked
  · rw [Sent.frames_of_chunked digest h_chunked] at h
    obtain ⟨k, h_k, rfl⟩ := List.mem_map.mp h
    refine ⟨ne_nil_of_valid (valid_marshal ..), ?_⟩
    have h_total := (fits_fromExtension random h_text h_length).total h_chunked
    have h_small : (4096 : ℕ) < 2 ^ 63 := by norm_num
    exact length_chunkFrame_le_of_plain digest (plain_randomChunkId random) (le_refl CHUNK_BYTES)
      ((List.mem_range.mp h_k).trans (h_total.trans_lt h_small)) (h_total.trans_lt h_small)
  · rw [Sent.frames_of_not_chunked digest h_chunked] at h
    obtain rfl := List.eq_of_mem_singleton h
    exact ⟨ne_nil_of_valid (valid_of_envelope h_text), Nat.not_lt.mp h_chunked⟩

/-- Frames on a pipe are read as they are. -/
theorem readFrames_flatMap {maxBytes : ℕ} {frames : List Bytes}
    (h : ∀ frame ∈ frames, 1 ≤ frame.length ∧ frame.length ≤ MaxHostToChrome)
    (h_max : MaxHostToChrome ≤ maxBytes) :
    readFrames maxBytes (frames.flatMap framed) = (frames, .eof) := by
  induction frames with
  | nil => exact readFrames_of_error readFrame_nil
  | cons frame frames ih =>
    obtain ⟨h_frame, h⟩ := List.forall_mem_cons.mp h
    rw [List.flatMap_cons, readFrames_of_ok (readFrame_framed h_frame (h_frame.2.trans h_max) _),
      ih h]

section

variable {ι : Type}

/-- What Chrome writes: the frames that arrive, each with its length. -/
def chromeIn (frames : ι → List Bytes) (arrivals : List (Arrival ι)) : Bytes :=
  (arrivals.map fun x => (wire frames x).2).flatMap framed

/-- The messages of the extension, and how their frames arrive. -/
structure Sends (digest : Bytes → Vector UInt8 32) (texts : ι → Bytes)
    (randoms : ι → Vector UInt8 12) (frames : ι → List Bytes) (arrivals : List (Arrival ι)) :
    Prop where
  envelope : ∀ i, Envelope (texts i)
  /-- The texts are those of `JSON.stringify`, without white space around them. -/
  tight : ∀ i, Tight (texts i)
  length : ∀ i, (texts i).length ≤ MAX_ASSEMBLED_BYTES
  ids : Function.Injective fun i => randomChunkId (randoms i)
  encoded : ∀ i, encodeMessage digest (randoms i) (texts i) = .ok (frames i)
  interleaving : Interleaving frames arrivals

variable {digest : Bytes → Vector UInt8 32} {texts : ι → Bytes} {randoms : ι → Vector UInt8 12}
  {frames : ι → List Bytes} {arrivals : List (Arrival ι)}

/-- The frames are those of the extension. -/
theorem Sends.frames_eq (h : Sends digest texts randoms frames arrivals) :
    frames = fun i => (fromExtension (randoms i) (texts i)).frames digest := by
  funext i
  exact Except.ok.inj ((h.encoded i).symm.trans (encodeMessage_ok digest (randoms i) (h.length i)))

/-- Every frame has a proper length. -/
theorem Sends.length_wire (h : Sends digest texts randoms frames arrivals) :
    ∀ frame ∈ arrivals.map (fun x => (wire frames x).2),
      1 ≤ frame.length ∧ frame.length ≤ MaxHostToChrome := by
  intro frame h_frame
  obtain ⟨x, h_x, rfl⟩ := List.mem_map.mp h_frame
  have h_sent := h.interleaving.sent x h_x
  refine @length_of_mem_frames digest (randoms x.message) _ _ (h.envelope x.message)
    (h.length x.message) ?_
  rw [← congrFun h.frames_eq x.message]
  show (frames x.message).getD x.frame [] ∈ frames x.message
  rw [List.getD_eq_getElem?_getD, List.getElem?_eq_getElem h_sent]
  exact List.getElem_mem h_sent

/-- The frames with their times. -/
theorem zip_wire (frames : ι → List Bytes) (arrivals : List (Arrival ι)) :
    (arrivals.map Arrival.time).zip (arrivals.map fun x => (wire frames x).2) =
      arrivals.map (wire frames) := by
  rw [List.zip_map']
  rfl

/-- The messages that all the frames complete. -/
theorem Sends.delivered (h : Sends digest texts randoms frames arrivals) :
    ∃ order, Completes frames arrivals order ∧
      completed (Assembler.feed digest (fun _ => none) (arrivals.map (wire frames))) =
        order.map texts ∧
      ∀ e, (relayIn digest e (fun _ => none) (arrivals.map (wire frames))).2 = .read e := by
  have h_frames := h.frames_eq
  subst h_frames
  obtain ⟨order, h_nodup, h_mem, h_sorted, h_completed, h_end⟩ :=
    @completed_of_tracks digest ι arrivals (fun i => fromExtension (randoms i) (texts i)) h.ids
      (fun i => fits_fromExtension (randoms i) (h.envelope i) (h.length i)) h.interleaving
      [] arrivals (List.nil_append _).symm _ Tracks.nil
  refine ⟨order, ⟨h_nodup, fun i => (h_mem i).mpr fun h_complete => ?_, h_sorted⟩, h_completed,
    h_end⟩
  -- Every message has a first frame.
  have h_pos := (fromExtension (randoms i) (texts i)).length_frames_pos digest
    (fits_fromExtension (randoms i) (h.envelope i) (h.length i)).size_pos
  obtain ⟨x, h_x, -⟩ := h_complete 0 h_pos
  cases h_x

/-- **Messages of the extension reach the daemon.** Whatever order their frames arrive in, the
daemon decodes every message once and as it was sent, in the order in which the messages are
complete. -/
theorem relayFromChrome_delivers (h : Sends digest texts randoms frames arrivals) :
    ∃ order, Completes frames arrivals order ∧
      decodeAll maxNestingDepth (relayFromChrome digest (arrivals.map Arrival.time)
        (chromeIn frames arrivals)).1 = (order.map texts, .eof) ∧
      (relayFromChrome digest (arrivals.map Arrival.time) (chromeIn frames arrivals)).2 =
        .read .eof := by
  obtain ⟨order, h_order, h_completed, h_end⟩ := h.delivered
  -- all frames are read
  have h_read : readFrames MaxChromeToHost (chromeIn frames arrivals) =
      (arrivals.map fun x => (wire frames x).2, .eof) :=
    readFrames_flatMap h.length_wire (by decide)
  unfold relayFromChrome
  rw [h_read, zip_wire, relayIn_eq, h_completed]
  refine ⟨order, h_order, ?_, h_end .eof⟩
  -- and all lines are decoded
  refine decodeAll_lines_of_tight ?_ ?_
  · rintro text h_text
    obtain ⟨i, -, rfl⟩ := List.mem_map.mp h_text
    exact valid_of_envelope (h.envelope i)
  · rintro text h_text
    obtain ⟨i, -, rfl⟩ := List.mem_map.mp h_text
    exact h.tight i

/-- An object without fields. -/
def emptyObject : Bytes := paddedObject 0

/-- The empty object has no blanks around it. -/
theorem tight_emptyObject : Tight emptyObject := by
  have h_eq : emptyObject = [123, 125] := rfl
  rw [h_eq]
  refine ⟨?_, ?_⟩
  · rintro _ ⟨⟩
    rfl
  · rintro _ ⟨⟩
    rfl

/-- It begins with a brace. -/
theorem head_emptyObject : emptyObject.head? = some brace := rfl

/-- An object with a text of this many characters. -/
def longTree (n : ℕ) : Json := .obj [("text", .str (String.ofList (List.replicate n 'x')))]

/-- An object with a long string. -/
def longObject (n : ℕ) : Bytes := encodeUtf8 (longTree n).encode

/-- How it is written. -/
theorem encode_longTree (n : ℕ) : (longTree n).encode =
    '{' :: (quote "text" ++ ':' :: quote (String.ofList (List.replicate n 'x'))) ++ ['}'] := rfl

/-- How long it is. -/
theorem length_longObject (n : ℕ) : (longObject n).length = n + 11 := by
  have h_plain : ∀ c ∈ (String.ofList (List.replicate n 'x')).toList,
      c ∉ escaped ∧ c.utf8Size = 1 := by
    intro c h_c
    rw [String.toList_ofList] at h_c
    rw [List.eq_of_mem_replicate h_c]
    decide
  have h_words : (encodeUtf8 (quote "text")).length = 6 ∧ (encodeUtf8 ['}']).length = 1 ∧
      '{'.utf8Size = 1 ∧ ':'.utf8Size = 1 := by decide
  obtain ⟨h_name, h_close, h_open, h_colon⟩ := h_words
  rw [longObject, encode_longTree, length_encodeUtf8_append, length_encodeUtf8_cons,
    length_encodeUtf8_append, length_encodeUtf8_cons, length_encodeUtf8_quote h_plain,
    String.toList_ofList, List.length_replicate]
  omega

/-- It is no chunk. -/
theorem envelope_longObject (n : ℕ) : Envelope (longObject n) := by
  have h_readable : Reader.Readable (longTree n) maxNestingDepth :=
    ⟨by decide, trivial, trivial⟩
  refine ⟨[("text", .str (String.ofList (List.replicate n 'x')))], ?_,
    List.forall_mem_singleton.mpr ?_⟩
  case refine_2 => exact (by decide : foldName "text" ≠ foldName "__bc_chunk")
  rw [parse, longObject, decodeUtf8_encodeUtf8]
  exact Reader.read_encode h_readable

/-- It has no blanks around it. -/
theorem tight_longObject (n : ℕ) : Tight (longObject n) := by
  have h_close : encodeUtf8 ['}'] = [125] := rfl
  refine ⟨?_, ?_⟩
  · rintro _ ⟨⟩
    rfl
  · rw [longObject, encode_longTree, encodeUtf8, List.flatMap_append]
    change ∀ b ∈ (_ ++ encodeUtf8 ['}']).getLast?, _
    rw [h_close, List.getLast?_append_of_ne_nil _ (List.cons_ne_nil _ _)]
    rintro _ ⟨⟩
    rfl

/-- It begins with a brace. -/
theorem head_longObject (n : ℕ) : (longObject n).head? = some brace := rfl

/-- Two ids. -/
def sampleRandom (i : Bool) : Vector UInt8 12 := Vector.replicate 12 (if i then 1 else 0)

/-- One message is too long for a frame, and the other has no fields. -/
def sampleTexts (i : Bool) : Bytes := if i then longObject (1024 * 1024) else emptyObject

/-- What holds of both texts. -/
theorem forall_sampleTexts {P : Bytes → Prop} (h_long : ∀ n, P (longObject n))
    (h_empty : P emptyObject) (i : Bool) : P (sampleTexts i) := by
  unfold sampleTexts
  split
  · exact h_long _
  · exact h_empty

/-- Neither message is too long. -/
theorem length_sampleTexts (i : Bool) : (sampleTexts i).length ≤ MAX_ASSEMBLED_BYTES := by
  unfold sampleTexts
  split
  · rw [length_longObject]
    decide
  · decide

/-- The digest of a sample is no digest, but one is like the other. -/
def sampleDigest (_ : Bytes) : Vector UInt8 32 := Vector.replicate 32 0

/-- One message comes in three chunks, the other in one frame. -/
def sampleFrames (i : Bool) : List Bytes :=
  (fromExtension (sampleRandom i) (sampleTexts i)).frames sampleDigest

/-- How many frames there are. -/
theorem length_sampleFrames (i : Bool) : (sampleFrames i).length = if i then 3 else 1 := by
  cases i with
  | true =>
    have h_length : (sampleTexts true).length = 1024 * 1024 + 11 := by
      rw [sampleTexts, if_pos rfl, length_longObject]
    have h_chunked : (fromExtension (sampleRandom true) (sampleTexts true)).Chunked := by
      show MaxHostToChrome < (sampleTexts true).length
      rw [h_length]
      decide
    have h_total : totalChunks CHUNK_BYTES (sampleTexts true) = 3 := by
      rw [totalChunks, h_length]
      decide
    rw [sampleFrames, Sent.frames_of_chunked _ h_chunked, List.length_map, List.length_range]
    exact h_total
  | false => rfl

/-- The last chunk of the long message arrives first, and the other message before its other
chunks. -/
def sampleArrivals : List (Arrival Bool) :=
  [⟨3, true, 2⟩, ⟨4, false, 0⟩, ⟨5, true, 0⟩, ⟨8, true, 1⟩]

/-- The first frame that arrives is the last chunk of the long message. -/
theorem sampleArrivals_eq :
    sampleArrivals = [] ++ ⟨3, true, 2⟩ :: [⟨4, false, 0⟩, ⟨5, true, 0⟩, ⟨8, true, 1⟩] := rfl

/-- The short message comes between the chunks of the long one. -/
theorem interleaving_sampleArrivals : Interleaving sampleFrames sampleArrivals := by
  -- Each frame occurs, none twice, and the arrivals are a minute apart at most.
  refine interleaving_of_nodup ?_ ?_ (by decide) (by simp [sampleArrivals, minute])
  · simp [sampleArrivals, length_sampleFrames]
  · intro i k h_k
    rw [length_sampleFrames] at h_k
    cases i with
    | true =>
      have h_cases : k = 0 ∨ k = 1 ∨ k = 2 := by
        rw [if_pos rfl] at h_k
        omega
      rcases h_cases with rfl | rfl | rfl
      · exact ⟨⟨5, true, 0⟩, by simp [sampleArrivals], rfl, rfl⟩
      · exact ⟨⟨8, true, 1⟩, by simp [sampleArrivals], rfl, rfl⟩
      · exact ⟨⟨3, true, 2⟩, by simp [sampleArrivals], rfl, rfl⟩
    | false =>
      obtain rfl : k = 0 := Nat.lt_one_iff.mp h_k
      exact ⟨⟨4, false, 0⟩, by simp [sampleArrivals], rfl, rfl⟩

/-- All conditions are met. -/
theorem sends_sample : Sends sampleDigest sampleTexts sampleRandom sampleFrames sampleArrivals where
  envelope := forall_sampleTexts envelope_longObject (envelope_paddedObject 0)
  tight := forall_sampleTexts tight_longObject tight_emptyObject
  length := length_sampleTexts
  ids := by
    intro i j
    revert i j
    decide
  encoded i := encodeMessage_ok sampleDigest (sampleRandom i) (length_sampleTexts i)
  interleaving := interleaving_sampleArrivals

/-- The theorem for a chunked message with another one in between. -/
theorem relayFromChrome_delivers_two :
    ∃ order, Completes sampleFrames sampleArrivals order ∧
      decodeAll maxNestingDepth (relayFromChrome sampleDigest (sampleArrivals.map Arrival.time)
        (chromeIn sampleFrames sampleArrivals)).1 = (order.map sampleTexts, .eof) ∧
      (relayFromChrome sampleDigest (sampleArrivals.map Arrival.time)
        (chromeIn sampleFrames sampleArrivals)).2 = .read .eof :=
  relayFromChrome_delivers sends_sample

/-- Cut lists, with their times. -/
theorem zip_of_cut {α β : Type} (times : List α) {l l' : List β} (h : l <+: l') :
    times.zip l <+: times.zip l' := by
  obtain ⟨more, rfl⟩ := h
  induction l generalizing times with
  | nil =>
    rw [List.zip_nil_right]
    exact List.nil_prefix
  | cons b l ih =>
    cases times with
    | nil => exact List.nil_prefix
    | cons a times => exact (List.prefix_cons_inj (a, b)).mpr (ih times)

/-- A prefix of some frames is answered with a prefix of the answers. -/
theorem feed_of_cut (digest : Bytes → Vector UInt8 32) (a : Assembler) {l l' : List (ℕ × Bytes)}
    (h : l <+: l') : a.feed digest l <+: a.feed digest l' := by
  obtain ⟨more, rfl⟩ := h
  induction l generalizing a with
  | nil => exact List.nil_prefix
  | cons frame l ih =>
    rw [List.cons_append, Assembler.feed, Assembler.feed]
    exact (List.prefix_cons_inj _).mpr (ih _)

/-- Cut answers. -/
theorem completed_of_cut {answers answers' : List (Except String (Option Bytes))}
    (h : answers <+: answers') : completed answers <+: completed answers' := by
  obtain ⟨more, rfl⟩ := h
  induction answers with
  | nil => exact List.nil_prefix
  | cons answer answers ih =>
    cases answer with
    | error e => exact List.prefix_rfl
    | ok answer =>
      cases answer with
      | none => exact ih
      | some message => exact (List.prefix_cons_inj message).mpr ih

/-- What is read of a pipe that is cut. -/
theorem readFrames_of_cut {maxBytes : ℕ} {frames : List Bytes}
    (h : ∀ frame ∈ frames, 1 ≤ frame.length ∧ frame.length ≤ MaxHostToChrome)
    (h_max : MaxHostToChrome ≤ maxBytes) {cut : Bytes} (h_cut : cut <+: frames.flatMap framed) :
    (readFrames maxBytes cut).1 <+: frames := by
  by_cases h_eq : cut = frames.flatMap framed
  · have h_all : (readFrames maxBytes cut).1 = frames := by rw [h_eq, readFrames_flatMap h h_max]
    exact ⟨[], (List.append_nil _).trans h_all⟩
  · exact (readFrames_cut h (fun frame h_frame => (h frame h_frame).2.trans h_max) h_cut h_eq).1

/-- Where there are no blanks, nothing is lost with them. -/
theorem eq_of_forall₂_padded {texts raws : List Bytes} (h : List.Forall₂ Padded texts raws)
    (h_tight : ∀ text ∈ texts, Tight text) : raws = texts := by
  induction h with
  | nil => rfl
  | cons h_raw _ ih =>
    obtain ⟨h_text, h_texts⟩ := List.forall_mem_cons.mp h_tight
    rw [eq_of_padded h_raw h_text, ih h_texts]

/-- **A relay that dies.** Wherever the pipe of Chrome and the connection to the daemon are cut, the
daemon has decoded the first of the messages, as they were sent: no part of a message is taken for a
message, and none is refused for its syntax. -/
theorem relayFromChrome_cut (h : Sends digest texts randoms frames arrivals)
    (h_brace : ∀ i, (texts i).head? = some brace) {pipe written : Bytes}
    (h_pipe : pipe <+: chromeIn frames arrivals)
    (h_written : written <+: (relayFromChrome digest (arrivals.map Arrival.time) pipe).1) :
    ∃ order n e, Completes frames arrivals order ∧
      decodeAll maxNestingDepth written = ((order.map texts).take n, e) ∧ e ≠ .syntaxError := by
  obtain ⟨order, h_order, h_completed, -⟩ := h.delivered
  -- what is read of the pipe are the first frames, and they complete the first messages
  have h_first : completed (Assembler.feed digest (fun _ => none)
      ((arrivals.map Arrival.time).zip (readFrames MaxChromeToHost pipe).1)) <+:
      order.map texts := by
    have h_prefix := readFrames_of_cut h.length_wire (by decide : _ ≤ MaxChromeToHost) h_pipe
    rw [← h_completed, ← zip_wire]
    exact completed_of_cut (feed_of_cut digest _ (zip_of_cut _ h_prefix))
  rw [relayFromChrome, relayIn_eq] at h_written
  obtain ⟨m, h_m⟩ : ∃ m, completed (Assembler.feed digest (fun _ => none)
      ((arrivals.map Arrival.time).zip (readFrames MaxChromeToHost pipe).1)) =
      (order.map texts).take m := ⟨_, List.prefix_iff_eq_take.mp h_first⟩
  have h_mem : ∀ text ∈ (order.map texts).take m, ∃ i, texts i = text := by
    intro text h_text
    obtain ⟨i, -, h_i⟩ := List.mem_map.mp (List.mem_of_mem_take h_text)
    exact ⟨i, h_i⟩
  rw [h_m] at h_written
  -- and of what is written, the first ones are decoded
  obtain ⟨n, raws, e, h_all, h_e, h_padded⟩ := @decodeAll_of_prefix_lines
    maxNestingDepth _ _ (fun text h_text => by
      obtain ⟨i, rfl⟩ := h_mem text h_text
      exact valid_of_envelope (h.envelope i))
    (fun text h_text => by
      obtain ⟨i, rfl⟩ := h_mem text h_text
      exact h_brace i) h_written
  refine ⟨order, min n m, e, h_order, ?_, h_e⟩
  rw [h_all, ← List.take_take, eq_of_forall₂_padded h_padded]
  intro text h_text
  obtain ⟨i, rfl⟩ := h_mem text (List.mem_of_mem_take h_text)
  exact h.tight i

/-- A frame of the sample. -/
def sampleFrame (i : Bool) (k : ℕ) : Bytes := (sampleFrames i).getD k []

/-- The last byte of the third frame is missing, and the fourth frame. -/
def samplePipe : Bytes :=
  framed (sampleFrame true 2) ++
    (framed (sampleFrame false 0) ++ (framed (sampleFrame true 0)).dropLast)

/-- The pipe is cut within a chunked message. -/
theorem samplePipe_prefix_chromeIn : samplePipe <+: chromeIn sampleFrames sampleArrivals := by
  have h_eq : chromeIn sampleFrames sampleArrivals =
      framed (sampleFrame true 2) ++ (framed (sampleFrame false 0) ++
        (framed (sampleFrame true 0) ++ framed (sampleFrame true 1))) := by
    simp [chromeIn, sampleArrivals, wire, sampleFrame]
  rw [h_eq, samplePipe, List.prefix_append_right_inj, List.prefix_append_right_inj]
  exact (List.dropLast_prefix _).trans (List.prefix_append ..)

/-- Nothing is read of a frame without its last byte. -/
theorem readFrames_dropLast {maxBytes : ℕ} {frame : Bytes}
    (h : 1 ≤ frame.length ∧ frame.length ≤ MaxHostToChrome) (h_max : frame.length ≤ maxBytes) :
    (readFrames maxBytes (framed frame).dropLast).1 = [] := by
  have h_ne : (framed frame).dropLast ≠ framed frame := by
    intro h_eq
    have h_length := congrArg List.length h_eq
    rw [List.length_dropLast, framed, List.length_append] at h_length
    omega
  obtain ⟨e, h_error, -⟩ := readFrame_cut h h_max (List.dropLast_prefix _) h_ne
  rw [readFrames_of_error h_error]

/-- The frames of the sample have a proper length. -/
theorem length_sampleFrame {i : Bool} {k : ℕ} (h_k : k < if i then 3 else 1) :
    1 ≤ (sampleFrame i k).length ∧ (sampleFrame i k).length ≤ MaxHostToChrome := by
  have h_lt : k < (sampleFrames i).length := by
    rw [length_sampleFrames]
    exact h_k
  refine @length_of_mem_frames sampleDigest (sampleRandom i) _ _ (sends_sample.envelope i)
    (sends_sample.length i) ?_
  change (sampleFrames i).getD k [] ∈ sampleFrames i
  rw [List.getD_eq_getElem?_getD, List.getElem?_eq_getElem h_lt]
  exact List.getElem_mem h_lt

/-- What the relay writes then is the message without fields. -/
theorem relayFromChrome_samplePipe :
    (relayFromChrome sampleDigest (sampleArrivals.map Arrival.time) samplePipe).1 =
      lines [emptyObject] := by
  have h_max : MaxHostToChrome ≤ MaxChromeToHost := by decide
  have h_first := @length_sampleFrame true 2 (by decide)
  have h_second := @length_sampleFrame false 0 (by decide)
  have h_third := @length_sampleFrame true 0 (by decide)
  -- Two frames are read, and the third one is cut.
  have h_read : (readFrames MaxChromeToHost samplePipe).1 =
      [sampleFrame true 2, sampleFrame false 0] := by
    rw [samplePipe, readFrames_of_ok (readFrame_framed h_first (h_first.2.trans h_max) _),
      readFrames_of_ok (readFrame_framed h_second (h_second.2.trans h_max) _),
      readFrames_dropLast h_third (h_third.2.trans h_max)]
  -- The chunk is kept, since two more are missing, and the other message is complete.
  obtain ⟨answer, a, h_accept, -, -, h_no⟩ :=
    (@Tracks.nil sampleDigest Bool fun i => fromExtension (sampleRandom i) (sampleTexts i)).step
      sends_sample.ids (fun i =>
        fits_fromExtension _ (sends_sample.envelope i) (length_sampleTexts i))
      interleaving_sampleArrivals sampleArrivals_eq
  have h_answer : answer = none := by
    refine h_no fun h_complete => ?_
    obtain ⟨x, h_x, -, h_frame⟩ := h_complete 0 (by
      change 0 < (sampleFrames true).length
      rw [length_sampleFrames]
      decide)
    rw [List.eq_of_mem_singleton h_x] at h_frame
    cases h_frame
  have h_wire : wire (fun i => (fromExtension (sampleRandom i) (sampleTexts i)).frames sampleDigest)
      ⟨3, true, 2⟩ = (3, sampleFrame true 2) := rfl
  rw [h_answer, h_wire] at h_accept
  have h_whole : a.accept sampleDigest 4 (sampleFrame false 0) = (.ok (some emptyObject), a) :=
    accept_envelope sampleDigest (envelope_paddedObject 0) a 4
  rw [relayFromChrome, h_read]
  change (relayIn sampleDigest _ _ [(3, sampleFrame true 2), (4, sampleFrame false 0)]).1 = _
  have h_feed : Assembler.feed sampleDigest (fun _ => none)
      [(3, sampleFrame true 2), (4, sampleFrame false 0)] =
        [.ok none, .ok (some emptyObject)] := by
    rw [Assembler.feed]
    dsimp only
    rw [h_accept, Assembler.feed]
    dsimp only
    rw [h_whole, Assembler.feed]
  rw [relayIn_eq, h_feed]
  rfl

/-- The pipe is cut within a chunk, and the connection within the line of the other message. -/
theorem relayFromChrome_cut_two :
    ∃ order n e, Completes sampleFrames sampleArrivals order ∧
      decodeAll maxNestingDepth [brace] = ((order.map sampleTexts).take n, e) ∧
        e ≠ .syntaxError := by
  refine relayFromChrome_cut sends_sample
    (@forall_sampleTexts (fun text => text.head? = some brace) head_longObject head_emptyObject)
    samplePipe_prefix_chromeIn ?_
  rw [relayFromChrome_samplePipe]
  exact ⟨[125, newline], rfl⟩

end

/-! ### From the daemon to Chrome -/

/-- The frames that `WriteFrame` writes one after the other, up to the first that it refuses. -/
def writeEach : List Bytes → Bytes × Option String
  | [] => ([], none)
  | frame :: frames =>
    match writeFrame frame with
    | .error e => ([], some e)
    | .ok bytes => (bytes ++ (writeEach frames).1, (writeEach frames).2)

/-- The second goroutine: what it writes to Chrome, and why it returns. A value comes with what
`rand.Read` gives when it is encoded, and `e` is what `Decode` returns after them. -/
def relayOut (chunkSize : ℤ) (e : Scanner.ReadError) :
    List (Option (Vector UInt8 12) × Bytes) → Bytes × RelayError
  | [] => ([], .decode e)
  | raw :: raws =>
    match encode digest raw.1 raw.2 chunkSize with
    | .error e => ([], .encode e)
    | .ok frames =>
      match (writeEach frames).2 with
      | some e => ((writeEach frames).1, .write e)
      | none =>
        ((writeEach frames).1 ++ (relayOut chunkSize e raws).1, (relayOut chunkSize e raws).2)

/-- The second goroutine over what the daemon has written. -/
def relayToChrome (randoms : List (Option (Vector UInt8 12))) (chunkSize : ℤ) (daemonOut : Bytes) :
    Bytes × RelayError :=
  relayOut digest chunkSize (decodeAll maxNestingDepth daemonOut).2
    (randoms.zip (decodeAll maxNestingDepth daemonOut).1)

/-- Frames that fit the pipe are written. -/
theorem writeEach_ok {frames : List Bytes}
    (h : ∀ frame ∈ frames, 1 ≤ frame.length ∧ frame.length ≤ MaxHostToChrome) :
    writeEach frames = (frames.flatMap framed, none) := by
  induction frames with
  | nil => rfl
  | cons frame frames ih =>
    obtain ⟨h_frame, h⟩ := List.forall_mem_cons.mp h
    rw [writeEach, writeFrame_ok h_frame, ih h]
    rfl

/-- A value that is encoded and written. -/
theorem relayOut_cons {chunkSize : ℤ} {e : Scanner.ReadError} {random : Option (Vector UInt8 12)}
    {raw : Bytes} {frames : List Bytes} (h_encode : encode digest random raw chunkSize = .ok frames)
    (h : ∀ frame ∈ frames, 1 ≤ frame.length ∧ frame.length ≤ MaxHostToChrome)
    (raws : List (Option (Vector UInt8 12) × Bytes)) :
    relayOut digest chunkSize e ((random, raw) :: raws) =
      (frames.flatMap framed ++ (relayOut digest chunkSize e raws).1,
        (relayOut digest chunkSize e raws).2) := by
  have h_write := writeEach_ok h
  simp only [relayOut, h_encode, h_write]

/-- A message of the daemon: its text, what `rand.Read` gives for it, and the times at which its
frames reach the extension. -/
structure Outgoing where
  text : Bytes
  random : Vector UInt8 12
  times : List ℕ

variable {digest}

/-- The message as it is cut. -/
def Outgoing.sent (m : Outgoing) (chunkSize : ℤ) : Sent :=
  ⟨String.ofList (hex m.random.toList), clampChunkSize chunkSize, m.text⟩

variable (digest) in
/-- A message that keeps to the limits, and whose frames reach the extension in time. -/
structure Outgoing.Fits (m : Outgoing) (chunkSize : ℤ) : Prop where
  envelope : Envelope m.text
  /-- The text is that of `json.Encoder`, without white space around it. -/
  tight : Tight m.text
  decodable : Decodable m.text chunkSize
  times : m.times.length = ((m.sent chunkSize).frames digest).length
  prompt : ∀ first ∈ m.times.head?, ∀ time ∈ m.times,
    first ≤ time ∧ time ≤ first + ASSEMBLY_TTL_MS

/-- The frames of a message, as they reach the extension. -/
def Outgoing.received (m : Outgoing) (digest : Bytes → Vector UInt8 32) (chunkSize : ℤ) :
    List (ℕ × Bytes) := m.times.zip ((m.sent chunkSize).frames digest)

/-- The last frame is answered with the message, and the others with nothing. -/
def Outgoing.answers (m : Outgoing) : List (Except String (Option Json)) :=
  List.replicate (m.times.length - 1) (.ok none) ++ [.ok (jsonParse m.text)]

variable {m : Outgoing} {chunkSize : ℤ}

/-- What fits the host fits the extension. -/
theorem Outgoing.Fits.sent (h : m.Fits digest chunkSize) : (m.sent chunkSize).Fits where
  envelope := h.envelope
  id_ne := by
    intro h_empty
    have h_hex := congrArg (fun s : String => s.toList.length) h_empty
    dsimp only [Outgoing.sent] at h_hex
    rw [String.toList_ofList, length_hex, Vector.length_toList] at h_hex
    revert h_hex
    decide
  size_pos := clampChunkSize_pos chunkSize
  length := h.decodable.elim (fun h_short => h_short.trans (by decide)) fun h_long => h_long.1
  total := fun h_chunked =>
    h.decodable.elim (fun h_short => absurd h_short (Nat.not_le.mpr h_chunked))
    fun h_long => h_long.2

/-- The message is encoded, and its frames fit the pipe. -/
theorem Outgoing.Fits.encode (h : m.Fits digest chunkSize) :
    encode digest (some m.random) m.text chunkSize = .ok ((m.sent chunkSize).frames digest) ∧
      ∀ frame ∈ (m.sent chunkSize).frames digest,
        1 ≤ frame.length ∧ frame.length ≤ MaxHostToChrome := by
  -- the frames are within the limit, so encoding succeeds
  have h_encode : NativeMessaging.encode digest (some m.random) m.text chunkSize =
      .ok ((m.sent chunkSize).frames digest) := by
    by_cases h_chunked : (m.sent chunkSize).Chunked
    · refine encode_ok h.envelope h_chunked ?_
      exact (h.sent.total h_chunked).trans_lt (by norm_num)
    · rw [Sent.frames_of_not_chunked digest h_chunked]
      unfold NativeMessaging.encode
      have h_short : m.text.length ≤ MaxHostToChrome := Nat.not_lt.mp h_chunked
      rw [if_neg (not_not.mpr (valid_of_envelope h.envelope)), if_pos h_short]
      rfl
  refine ⟨h_encode, fun frame h_frame => ⟨?_, ?_⟩⟩
  · by_cases h_chunked : (m.sent chunkSize).Chunked
    · rw [Sent.frames_of_chunked digest h_chunked] at h_frame
      obtain ⟨k, -, rfl⟩ := List.mem_map.mp h_frame
      exact ne_nil_of_valid (valid_marshal ..)
    · rw [Sent.frames_of_not_chunked digest h_chunked] at h_frame
      rw [List.eq_of_mem_singleton h_frame]
      exact ne_nil_of_valid (valid_of_envelope h.envelope)
  · obtain ⟨id, -, h_frames, h_length⟩ := frames_of_encode h_encode
    exact h_length frame h_frame

/-- The frames of a chunked message that are still to come, and what comes after them. -/
theorem feed_chunks {m : Sent} (h_fits : m.Fits) (h_chunked : m.Chunked) {createdAt : ℕ}
    {times : List ℕ} (h_ne : times ≠ []) {n : ℕ} (h_n : n + times.length = m.total)
    (h_times : ∀ time ∈ times, time ≤ createdAt + ASSEMBLY_TTL_MS)
    (h_first : n = 0 → ∀ time ∈ times.head?, time = createdAt) (rest : List (ℕ × Bytes)) :
    (m.state digest createdAt (List.range n)).feed digest
        (times.zip ((List.range' n times.length).map (chunkFrame digest m.id m.size m.text)) ++
          rest) =
      List.replicate (times.length - 1) (.ok none) ++ .ok (jsonParse m.text) ::
        ChunkAssembler.feed digest [] rest := by
  induction times generalizing n with
  | nil => exact absurd rfl h_ne
  | cons time times ih =>
    rw [List.length_cons] at h_n
    obtain ⟨h_time, h_times⟩ := List.forall_mem_cons.mp h_times
    have h_range : List.range n ++ [n] = List.range (n + 1) := List.range_succ.symm
    have h_step := @accept_state digest m h_fits (h_fits.total h_chunked) createdAt time
      (List.range n) n (by rw [h_range]; exact List.nodup_range)
      (by
        intro j h_j
        rw [h_range, List.mem_range] at h_j
        omega)
      h_time (fun h_nil => h_first (List.range_eq_nil.mp h_nil) time rfl)
    rw [h_range] at h_step
    rw [List.length_cons, List.range'_succ, List.map_cons, List.zip_cons_cons, List.cons_append,
      ChunkAssembler.feed]
    dsimp only
    cases times with
    | nil =>
      -- The last frame completes the message.
      rcases h_step with ⟨-, h_accept⟩ | ⟨h_not, -⟩
      · rw [h_accept]
        rfl
      · refine absurd (fun j h_j => List.mem_range.mpr ?_) h_not
        rw [List.length_nil] at h_n
        omega
    -- after it one chunk more has come
    | cons time' times =>
      rcases h_step with ⟨h_all, -⟩ | ⟨-, h_accept⟩
      · have h_last := List.mem_range.mp (h_all (n + 1) (by rw [List.length_cons] at h_n; omega))
        omega
      · have h_rest := ih (List.cons_ne_nil _ _) (n := n + 1) (by omega) h_times (by omega)
        rw [h_accept]
        show Except.ok none :: ChunkAssembler.feed digest _ _ = _
        rw [h_rest]
        rfl

/-- One message reaches the extension, which then has nothing of it left. -/
theorem Outgoing.Fits.feed (h : m.Fits digest chunkSize) (rest : List (ℕ × Bytes)) :
    ChunkAssembler.feed digest [] (m.received digest chunkSize ++ rest) =
      m.answers ++ ChunkAssembler.feed digest [] rest := by
  have h_pos := (m.sent chunkSize).length_frames_pos digest h.sent.size_pos
  have h_length := h.times
  rw [Outgoing.received, Outgoing.answers, List.append_assoc, List.singleton_append]
  by_cases h_chunked : (m.sent chunkSize).Chunked
  · rw [Sent.frames_of_chunked digest h_chunked] at h_pos h_length ⊢
    rw [List.length_map, List.length_range] at h_pos h_length
    cases h_times : m.times with
    | nil =>
      rw [h_times, List.length_nil] at h_length
      omega
    | cons first times =>
      have h_prompt := h.prompt first (by rw [h_times]; rfl)
      rw [h_times] at h_length h_prompt
      have h_feed := @feed_chunks digest _ h.sent h_chunked first _ (List.cons_ne_nil first times)
        0 (by omega) (fun time h_time => (h_prompt time h_time).2)
        (by rintro - _ ⟨⟩; rfl) rest
      rw [← List.range_eq_range', h_length] at h_feed
      rw [h_length]
      exact h_feed
  -- a message in one frame is handed on at once
  · rw [Sent.frames_of_not_chunked digest h_chunked] at h_length ⊢
    obtain ⟨time, h_times⟩ := List.length_eq_one_iff.mp h_length
    obtain ⟨v, h_json, h_envelope, -⟩ := @parseJoined_envelope digest _ h.envelope
    have h_accept : ChunkAssembler.accept digest [] time m.text = (.ok (some v), []) := by
      rw [ChunkAssembler.accept, h_json]
      dsimp only
      rw [ChunkAssembler.acceptValue]
      rw [h_envelope]
      rfl
    rw [h_times, h_json]
    show ChunkAssembler.feed digest [] ((time, m.text) :: rest) = _
    rw [ChunkAssembler.feed]
    dsimp only
    rw [h_accept]
    rfl

/-- **Messages of the daemon reach the extension.** Chrome reads the frames of all messages from the
host, and the extension's assembler answers the last frame of each message with its value, and the
others with nothing. -/
theorem relayToChrome_delivers {ms : List Outgoing} (h : ∀ m ∈ ms, m.Fits digest chunkSize) :
    relayToChrome digest (ms.map fun m => some m.random) chunkSize
        (lines (ms.map Outgoing.text)) =
      ((ms.flatMap fun m => (m.sent chunkSize).frames digest).flatMap framed, .decode .eof) ∧
    readFrames MaxHostToChrome
        ((ms.flatMap fun m => (m.sent chunkSize).frames digest).flatMap framed) =
      ((ms.flatMap fun m => m.received digest chunkSize).map Prod.snd, .eof) ∧
    ChunkAssembler.feed digest [] (ms.flatMap fun m => m.received digest chunkSize) =
      ms.flatMap Outgoing.answers := by
  refine ⟨?_, ?_, ?_⟩
  -- the lines that the daemon writes are decoded one by one
  · have h_raws : decodeAll maxNestingDepth (lines (ms.map Outgoing.text)) =
        (ms.map Outgoing.text, .eof) := by
      refine decodeAll_lines_of_tight ?_ ?_
      · intro text h_text
        obtain ⟨m, h_m, rfl⟩ := List.mem_map.mp h_text
        exact valid_of_envelope (h m h_m).envelope
      · intro text h_text
        obtain ⟨m, h_m, rfl⟩ := List.mem_map.mp h_text
        exact (h m h_m).tight
    rw [relayToChrome, h_raws, List.zip_map']
    dsimp only
    clear h_raws
    induction ms with
    | nil => rfl
    | cons m ms ih =>
      obtain ⟨h_m, h⟩ := List.forall_mem_cons.mp h
      obtain ⟨h_encode, h_frames⟩ := h_m.encode
      rw [List.map_cons, relayOut_cons digest h_encode h_frames, ih h, List.flatMap_cons,
        List.flatMap_append]
  -- the frames are within Chrome's limit, so each is read back whole
  · have h_frames : (ms.flatMap fun m => m.received digest chunkSize).map Prod.snd =
        ms.flatMap fun m => (m.sent chunkSize).frames digest := by
      rw [List.map_flatMap]
      refine List.flatMap_congr fun m h_m => ?_
      exact List.map_snd_zip (h m h_m).times.ge
    rw [h_frames]
    refine readFrames_flatMap (fun frame h_frame => ?_) le_rfl
    obtain ⟨m, h_m, h_frame⟩ := List.mem_flatMap.mp h_frame
    exact (h m h_m).encode.2 frame h_frame
  -- and the extension answers message after message
  · induction ms with
    | nil => rfl
    | cons m ms ih =>
      obtain ⟨h_m, h⟩ := List.forall_mem_cons.mp h
      rw [List.flatMap_cons, h_m.feed, ih h, List.flatMap_cons]

/-- Two messages of the daemon, of which the first is too long for a frame. -/
def sampleOutgoing : List Outgoing :=
  [⟨longObject (1024 * 1024), sampleRandom true, [3, 5, 8]⟩,
    ⟨emptyObject, sampleRandom false, [9]⟩]

/-- The long message is sent in three chunks. -/
theorem fits_longObject :
    Outgoing.Fits sampleDigest ⟨longObject (1024 * 1024), sampleRandom true, [3, 5, 8]⟩
      DefaultChunkSize := by
  have h_length := length_longObject (1024 * 1024)
  have h_size : clampChunkSize DefaultChunkSize = DefaultChunkSize := by decide
  -- the object needs three chunks
  have h_total : totalChunks DefaultChunkSize (longObject (1024 * 1024)) = 3 := by
    rw [totalChunks, h_length]
    decide
  refine ⟨envelope_longObject _, tight_longObject _, .inr ⟨?_, ?_⟩, ?_, ?_⟩
  · rw [h_length]
    decide
  · rw [h_size, h_total]
    decide
  · have h_chunked : (Outgoing.sent ⟨longObject (1024 * 1024), sampleRandom true, [3, 5, 8]⟩
        DefaultChunkSize).Chunked := by
      show MaxHostToChrome < (longObject (1024 * 1024)).length
      rw [h_length]
      decide
    rw [Sent.frames_of_chunked _ h_chunked, List.length_map, List.length_range, Sent.total,
      Outgoing.sent, h_size]
    exact h_total.symm
  · simp [ASSEMBLY_TTL_MS]

/-- The empty object fits. -/
theorem fits_emptyObject :
    Outgoing.Fits sampleDigest ⟨emptyObject, sampleRandom false, [9]⟩ DefaultChunkSize := by
  have h_short :
      ¬ (Outgoing.sent ⟨emptyObject, sampleRandom false, [9]⟩ DefaultChunkSize).Chunked :=
    Nat.not_lt.mpr (by decide : emptyObject.length ≤ MaxHostToChrome)
  refine ⟨envelope_paddedObject 0, tight_emptyObject, .inl (by decide), ?_, by simp⟩
  rw [Sent.frames_of_not_chunked _ h_short]
  rfl

/-- So do the messages of the sample. -/
theorem fits_sampleOutgoing : ∀ m ∈ sampleOutgoing, m.Fits sampleDigest DefaultChunkSize :=
  List.forall_mem_cons.mpr ⟨fits_longObject, List.forall_mem_singleton.mpr fits_emptyObject⟩

/-- The theorem for a chunked message and a short one. -/
theorem relayToChrome_delivers_two :
    relayToChrome sampleDigest (sampleOutgoing.map fun m => some m.random) DefaultChunkSize
        (lines (sampleOutgoing.map Outgoing.text)) =
      ((sampleOutgoing.flatMap fun m =>
        (m.sent DefaultChunkSize).frames sampleDigest).flatMap framed, .decode .eof) ∧
    readFrames MaxHostToChrome ((sampleOutgoing.flatMap fun m =>
        (m.sent DefaultChunkSize).frames sampleDigest).flatMap framed) =
      ((sampleOutgoing.flatMap fun m => m.received sampleDigest DefaultChunkSize).map Prod.snd,
        .eof) ∧
    ChunkAssembler.feed sampleDigest []
        (sampleOutgoing.flatMap fun m => m.received sampleDigest DefaultChunkSize) =
      sampleOutgoing.flatMap Outgoing.answers :=
  relayToChrome_delivers fits_sampleOutgoing

end BrowserControl.NativeMessaging.Relay
