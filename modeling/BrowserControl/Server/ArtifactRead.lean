import BrowserControl.Core.Artifacts
import BrowserControl.Encoding.Float64
import BrowserControl.NativeMessaging.Chunk
import BrowserControl.Server.Forward

/-!
# Artifacts that are read in chunks

`artifact.readChunk` reads a part of the file of an artifact. The length that is asked for is
clamped by `ReadArtifactChunk`, to the default, to half a mebibyte and to what is left, and
`artifactRead` tells from the offset that was asked for whether the file is at its end.

`ArtifactRead.machine` is a client who reads a stored artifact from its begin, goes on by the length
of each chunk, and stops at the end or at an error. The client asks for any lengths; each request
finds the daemon as it happens to be, as long as the artifact is there. The numbers of a request are
rounded to 64 bits, and then converted to integers, which is where a length can go wrong
(`reassembles_iff`).
-/

namespace BrowserControl.Server.ArtifactRead

open Encoding Protocol BrowserControl.Core Transition

/-! ### The source -/

/-- What `numberField` makes of a field. -/
def numberOf (field : Option Json) (fallback : ℚ) : ℚ :=
  match field with
  | some (.num n) => (Float64.ofRat (NativeMessaging.numberValue n)).getD fallback
  | _ => fallback

/-- What `int64Field` makes of a field. `overflow` stands for the conversion of numbers that no
`int64` can hold. -/
def int64Of (overflow : ℚ → ℤ) (field : Option Json) : ℤ :=
  let value := numberOf field (-1)
  if value < 0 then 0 else Float64.toInt64 overflow value

/-- `int64Field`, without the flag that `artifactRead` ignores. -/
def int64Field (overflow : ℚ → ℤ) (params : Object) (key : String) : ℤ :=
  int64Of overflow (params.get key)

/-- What a request finds when it looks. -/
structure Daemon (κ : Type*) where
  manager : Manager κ
  files : String → Option (List UInt8)
  now : Time

/-- The artifact is gone. -/
def artifactExpired (id : String) : RPCError :=
  newError codeArtifactNotFound "ARTIFACT_EXPIRED" "artifact does not exist or has expired" false
    (.ofFields [("artifactId", .str id)])

/-- `ReadAt` fails if the file ends too soon. -/
def readAt (file : List UInt8) (offset length : ℕ) : Except RPCError (List UInt8) :=
  if file.length < offset + length then .error internal else .ok ((file.drop offset).take length)

/-- The file is not read if there is nothing to read. -/
def readPart (file : List UInt8) (offset length : ℤ) : Except RPCError (List UInt8) :=
  if length > 0 then readAt file offset.toNat length.toNat else .ok []

/-- The most bytes of one answer. -/
def maxChunk : ℤ := 512 * 1024

/-- The length for a request: the default, or not more than `maxChunk`. -/
def clampLength (length : ℤ) : ℤ := if length = 0 ∨ length > maxChunk then maxChunk else length

variable {κ : Type*}

/-- `GetArtifact` -/
def Daemon.getArtifact (s : Daemon κ) (id : String) : Except RPCError Artifact :=
  match s.manager.artifacts id with
  | some a => if a.expiresAt < s.now then .error (artifactExpired id) else .ok a
  | none => .error (artifactExpired id)

/-- `ReadArtifactChunk` -/
def Daemon.readArtifactChunk (s : Daemon κ) (id : String) (offset length : ℤ) :
    Except RPCError (List UInt8 × Artifact) := do
  let a ← s.getArtifact id
  if offset < 0 ∨ length < 0 then
    .error (invalidParams "offset and length must be non-negative" .empty)
  else
    match s.files a.path with
    | none => .error internal
    | some file =>
      -- An offset behind the end reads nothing.
      let offset := if offset > a.size then (a.size : ℤ) else offset
      let length := clampLength length
      let remaining := a.size - offset
      let length := if length > remaining then remaining else length
      let data ← readPart file offset length
      return (data, a)

/-- `authorizeArtifact` -/
def Daemon.authorizeArtifact (s : Daemon κ) (params : Object) (artifact : Artifact) :
    Except RPCError Unit :=
  let sessionID := stringField params "sessionId"
  if sessionID = "" then
    .error (invalidParams "sessionId is required for artifact access" .empty)
  else if artifact.sessionID ≠ sessionID then
    .error (newError codeCapabilityDenied "PERMISSION_DENIED"
      "artifact belongs to a different session" false (.ofFields
        [("artifactId", .str artifact.artifactID), ("sessionId", .str sessionID)]))
  else do
    let _ ← s.manager.getSession sessionID

/-- The daemon in the critical sections of a request, and when it reads the file. -/
structure Moments (κ : Type*) where
  metadata : Daemon κ
  session : Daemon κ
  chunk : Daemon κ

/-- The answer of `artifact.read`. -/
structure Chunk where
  artifactID : String
  offset : ℤ
  length : ℕ
  eof : Bool
  dataBase64 : String

/-- `artifactRead` -/
def artifactRead (overflow : ℚ → ℤ) (at' : Moments κ) (params : Object) :
    Except RPCError Chunk := do
  let metadata ← at'.metadata.getArtifact (stringField params "artifactId")
  at'.session.authorizeArtifact params metadata
  let offset := int64Field overflow params "offset"
  let length := int64Field overflow params "length"
  -- The artifact is looked up again for the chunk, by the id it was found under.
  let (data, artifact) ← at'.chunk.readArtifactChunk metadata.artifactID offset length
  return {
    artifactID := artifact.artifactID
    offset
    length := data.length
    -- The end is told from the offset that was asked for.
    eof := decide (offset + data.length ≥ artifact.size)
    dataBase64 := String.ofList (Base64.encode data) }

/-! ### The client -/

/-- What a client has read. -/
structure Client where
  offset : ℕ := 0
  chunks : List (List UInt8) := []
  eof : Bool := false
  failed : Bool := false

/-- A request, with the length it asks for. -/
structure Call (κ : Type*) where
  at' : Moments κ
  length : Option Json

/-- The artifact that is read, and its file. -/
structure Stored where
  cfg : Artifacts.Config
  request : Artifacts.Request
  id : String
  createdAt : Time

/-- The record of the artifact. -/
def Stored.artifact (x : Stored) : Artifact := x.cfg.artifact x.request x.id x.createdAt

/-- Its bytes. -/
def Stored.data (x : Stored) : List UInt8 := x.request.data

/-- The parameters of a request of the client. -/
def Stored.params (x : Stored) (offset : ℕ) (length : Option Json) : Object :=
  let params := Object.ofFields [("sessionId", .str x.artifact.sessionID),
    ("artifactId", .str x.artifact.artifactID), ("offset", NativeMessaging.number offset)]
  match length with
  | some length => params.set "length" length
  | none => params

/-- The artifact is there, is not expired, and has its file. -/
structure Available (x : Stored) (s : Daemon κ) : Prop where
  artifact : s.manager.artifacts x.artifact.artifactID = some x.artifact
  current : s.now ≤ x.artifact.expiresAt
  file : s.files x.artifact.path = some x.data
  session : (s.manager.sessions x.artifact.sessionID).isSome

/-- A client reads an answer. -/
def Client.read (s : Client) : Except RPCError Chunk → Client
  | .error _ => { s with failed := true }
  | .ok chunk =>
    match Base64.decode chunk.dataBase64.toList with
    | none => { s with failed := true }
    | some data =>
      { s with offset := s.offset + chunk.length, chunks := s.chunks ++ [data], eof := chunk.eof }

/-- A client who reads the artifact `x`. -/
def machine (κ : Type*) (overflow : ℚ → ℤ) (x : Stored) : Machine Client (Call κ) where
  init := {}
  enabled s e := s.eof = false ∧ s.failed = false ∧
    Available x e.at'.metadata ∧ Available x e.at'.session ∧ Available x e.at'.chunk
  next s e := s.read (artifactRead overflow e.at' (x.params s.offset e.length))

/-- **The artifact is reassembled.** -/
structure Sound (x : Stored) (s : Client) : Prop where
  answered : s.failed = false
  chunks : s.chunks.flatten = x.data.take s.offset
  /-- At the end the chunks are the artifact. -/
  complete : s.eof = true → s.chunks.flatten = x.data
  offset : s.offset ≤ x.data.length
  /-- The end is reported with the chunk that reaches it, or that begins there. -/
  eof : s.eof = true ↔ s.chunks ≠ [] ∧ s.offset = x.data.length
  /-- There is an empty chunk for an empty artifact only. -/
  nonempty : ∀ chunk ∈ s.chunks, chunk = [] → x.data = []
  /-- So the client comes to the end. -/
  terminates : s.chunks.length ≤ x.data.length + 1

/-- The length of a request is not converted to a negative number. -/
def Convertible (overflow : ℚ → ℤ) (_ : Client) (e : Call κ) : Prop := 0 ≤ int64Of overflow e.length

instance (overflow : ℚ → ℤ) (s : Client) (e : Call κ) : Decidable (Convertible overflow s e) :=
  inferInstanceAs (Decidable (_ ≤ _))

/-! ### One request -/

variable {overflow : ℚ → ℤ} {x : Stored} {s : Client}

/-- An artifact that is available is found. -/
theorem getArtifact_ok {d : Daemon κ} (h : Available x d) :
    d.getArtifact x.artifact.artifactID = .ok x.artifact := by
  rw [Daemon.getArtifact, h.artifact]
  exact if_neg h.current.not_gt

/-- The parameters of a read. -/
theorem get_params (offset : ℕ) (length : Option Json) :
    stringField (x.params offset length) "sessionId" = x.artifact.sessionID ∧
      stringField (x.params offset length) "artifactId" = x.artifact.artifactID ∧
      (x.params offset length).get "offset" = some (NativeMessaging.number offset) ∧
      (x.params offset length).get "length" = length := by
  unfold stringField
  cases length with
  | none => simp [Stored.params, Object.ofFields, Object.get_set]
  | some length => simp [Stored.params, Object.ofFields, Object.get_set]

/-- The session of an artifact may read it. -/
theorem authorizeArtifact_ok {d : Daemon κ} (h : Available x d)
    (h_session : x.artifact.sessionID ≠ "")
    {params : Object} (h_params : stringField params "sessionId" = x.artifact.sessionID) :
    d.authorizeArtifact params x.artifact = .ok () := by
  obtain ⟨session, h_some⟩ := Option.isSome_iff_exists.mp h.session
  have h_get : d.manager.getSession x.artifact.sessionID = .ok session := by
    rw [Manager.getSession, h_some]
  rw [Daemon.authorizeArtifact, h_params]
  rw [if_neg h_session, if_neg (not_not.mpr rfl), h_get]
  rfl

/-- An offset in the artifact is read as it is. -/
theorem int64Of_offset {offset : ℕ} (h : offset < 2 ^ 53) :
    int64Of overflow (some (NativeMessaging.number offset)) = offset := by
  have h_number : numberOf (some (NativeMessaging.number offset)) (-1) = offset := by
    show (Float64.ofRat (NativeMessaging.numberValue (Reader.ofNat offset))).getD (-1) = _
    rw [NativeMessaging.numberValue_ofNat, Float64.ofRat_natCast h]
    rfl
  have h_nonneg : ¬ (offset : ℚ) < 0 := (Nat.cast_nonneg offset).not_gt
  rw [int64Of, h_number]
  rw [if_neg h_nonneg, Float64.toInt64_natCast overflow (by omega)]

/-- How much a request reads if there is as much. -/
def span (length : ℤ) : ℕ := (clampLength length).toNat

/-- An answer has room for a byte. -/
theorem span_pos {length : ℤ} (h : 0 ≤ length) : 0 < span length := by
  unfold span clampLength maxChunk
  split_ifs <;> omega

/-- A part of a file that it has. -/
theorem readPart_ok {file : List UInt8} {offset length : ℕ} (h : offset + length ≤ file.length) :
    readPart file offset length = .ok ((file.drop offset).take length) := by
  unfold readPart
  split_ifs with h_pos
  · exact if_neg h.not_gt
  · obtain rfl : length = 0 := by omega
    rw [List.take_zero]

/-- A read gives the bytes from the offset on. -/
theorem readArtifactChunk_ok {d : Daemon κ} (h : Available x d) {offset : ℕ}
    (h_offset : offset ≤ x.data.length) {length : ℤ} (h_length : 0 ≤ length) :
    d.readArtifactChunk x.artifact.artifactID offset length =
      .ok ((x.data.drop offset).take (span length), x.artifact) := by
  have h_size : x.artifact.size = x.data.length := rfl
  have h_pos := span_pos h_length
  have h_span : clampLength length = span length := by
    unfold span at h_pos ⊢
    omega
  have h_nonneg : ¬ ((offset : ℤ) < 0 ∨ length < 0) := by omega
  have h_begin : (if (offset : ℤ) > x.data.length then (x.data.length : ℤ) else offset) = offset :=
    if_neg (by omega)
  rw [Daemon.readArtifactChunk, getArtifact_ok h]
  simp only [bind, Except.bind, if_neg h_nonneg, h.file, h_size, h_begin, h_span]
  -- The length is clamped to what is left.
  have h_left : (if (span length : ℤ) > x.data.length - offset then (x.data.length : ℤ) - offset
      else span length) = (min (span length) (x.data.length - offset) : ℕ) := by
    split_ifs <;> omega
  have h_part : offset + min (span length) (x.data.length - offset) ≤ x.data.length := by omega
  have h_take : (x.data.drop offset).take (min (span length) (x.data.length - offset)) =
      (x.data.drop offset).take (span length) := by
    rw [← List.length_drop, ← List.take_eq_take_min]
  rw [h_left, readPart_ok h_part, h_take]
  rfl

/-- **A request that is answered** with the next part of the artifact. -/
theorem artifactRead_ok {at' : Moments κ} (h_metadata : Available x at'.metadata)
    (h_session : Available x at'.session) (h_chunk : Available x at'.chunk)
    (h_owner : x.artifact.sessionID ≠ "") (h_size : x.data.length ≤ Artifacts.maxArtifactSize)
    {offset : ℕ} (h_offset : offset ≤ x.data.length) {length : Option Json}
    (h_length : 0 ≤ int64Of overflow length) :
    artifactRead overflow at' (x.params offset length) = .ok {
      artifactID := x.artifact.artifactID
      offset := offset
      length := ((x.data.drop offset).take (span (int64Of overflow length))).length
      eof := decide (offset + ((x.data.drop offset).take (span (int64Of overflow length))).length ≥
        (x.data.length : ℤ))
      dataBase64 := String.ofList (Base64.encode
        ((x.data.drop offset).take (span (int64Of overflow length)))) } := by
  obtain ⟨h_sessionID, h_artifactID, h_get_offset, h_get_length⟩ :=
    get_params (x := x) offset length
  -- the offset is small enough to be a double without loss
  have h_lt : offset < 2 ^ 53 := by
    unfold Artifacts.maxArtifactSize at h_size
    omega
  rw [artifactRead, h_artifactID, getArtifact_ok h_metadata]
  simp only [bind, Except.bind, authorizeArtifact_ok h_session h_owner h_sessionID, int64Field,
    h_get_offset, h_get_length, int64Of_offset h_lt, readArtifactChunk_ok h_chunk h_offset h_length]
  rfl

/-- A length that is converted to a negative number. -/
theorem artifactRead_error {at' : Moments κ} (h_metadata : Available x at'.metadata)
    (h_session : Available x at'.session) (h_chunk : Available x at'.chunk)
    (h_owner : x.artifact.sessionID ≠ "") {offset : ℕ} {length : Option Json}
    (h_length : ¬ 0 ≤ int64Of overflow length) :
    ∃ rpcErr, artifactRead overflow at' (x.params offset length) = .error rpcErr := by
  obtain ⟨h_sessionID, h_artifactID, -, h_get_length⟩ := get_params (x := x) offset length
  refine ⟨invalidParams "offset and length must be non-negative" .empty, ?_⟩
  rw [artifactRead, h_artifactID, getArtifact_ok h_metadata]
  simp only [bind, Except.bind, authorizeArtifact_ok h_session h_owner h_sessionID, int64Field,
    h_get_length, Daemon.readArtifactChunk, getArtifact_ok h_chunk]
  rw [if_pos (.inr (not_le.mp h_length))]

/-! ### The whole artifact -/

theorem Sound.init : Sound x {} where
  answered := rfl
  chunks := rfl
  complete h := absurd h Bool.false_ne_true
  offset := Nat.zero_le _
  eof := iff_of_false Bool.false_ne_true fun h => h.1 rfl
  nonempty := List.forall_mem_nil _
  terminates := Nat.zero_le _

/-- There are at most as many chunks as bytes. -/
theorem length_le_flatten {chunks : List (List UInt8)} (h : ∀ chunk ∈ chunks, chunk ≠ []) :
    chunks.length ≤ chunks.flatten.length := by
  induction chunks with
  | nil => exact le_rfl
  | cons chunk chunks ih =>
    rw [List.forall_mem_cons] at h
    have h_pos := List.length_pos_of_ne_nil h.1
    have h_rest := ih h.2
    rw [List.length_cons, List.flatten_cons, List.length_append]
    omega

/-- The offset is where the chunks end. -/
theorem Sound.length_flatten (h : Sound x s) : s.chunks.flatten.length = s.offset := by
  rw [h.chunks, List.length_take_of_le h.offset]

/-- Before the end there are no more chunks than bytes. -/
theorem Sound.length_chunks (h : Sound x s) (h_more : s.eof = false) :
    s.chunks.length ≤ x.data.length := by
  by_cases h_data : x.data = []
  · -- The first chunk of an empty artifact is the last one.
    have h_offset := h.offset
    rw [h_data, List.length_nil] at h_offset ⊢
    by_contra h_some
    have h_chunks : s.chunks ≠ [] := by
      rintro h_nil
      rw [h_nil] at h_some
      exact h_some le_rfl
    have h_eof := h.eof.mpr ⟨h_chunks, by rw [h_data, List.length_nil]; omega⟩
    rw [h_more] at h_eof
    cases h_eof
  · have h_nonempty : ∀ chunk ∈ s.chunks, chunk ≠ [] :=
      fun chunk h_mem h_empty => h_data (h.nonempty chunk h_mem h_empty)
    calc s.chunks.length ≤ s.chunks.flatten.length := length_le_flatten h_nonempty
      _ = s.offset := h.length_flatten
      _ ≤ x.data.length := h.offset

/-- The next part of the artifact. -/
theorem Sound.next (h : Sound x s) (h_more : s.eof = false) {chunk : Chunk} {n : ℕ} (h_pos : 0 < n)
    (h_length : chunk.length = ((x.data.drop s.offset).take n).length)
    (h_eof : chunk.eof = decide (s.offset + ((x.data.drop s.offset).take n).length ≥
      (x.data.length : ℤ)))
    (h_data : chunk.dataBase64 = String.ofList (Base64.encode ((x.data.drop s.offset).take n))) :
    Sound x (s.read (.ok chunk)) := by
  have h_read : s.read (.ok chunk) =
      { s with
        offset := s.offset + ((x.data.drop s.offset).take n).length
        chunks := s.chunks ++ [(x.data.drop s.offset).take n]
        eof := chunk.eof } := by
    rw [Client.read, h_data, String.toList_ofList, Base64.decode_encode, h_length]
  have h_offset := h.offset
  have h_count := h.length_chunks h_more
  -- the chunk is as long as it can be
  have h_part : ((x.data.drop s.offset).take n).length = min n (x.data.length - s.offset) := by
    rw [List.length_take, List.length_drop]
  have h_flatten : (s.chunks ++ [(x.data.drop s.offset).take n]).flatten =
      x.data.take (s.offset + ((x.data.drop s.offset).take n).length) := by
    rw [List.flatten_concat, h.chunks, List.take_add, h_part, ← List.length_drop,
      ← List.take_eq_take_min]
  -- it says that it is the last one exactly if nothing is left
  have h_end : chunk.eof = true ↔
      s.offset + ((x.data.drop s.offset).take n).length = x.data.length := by
    rw [h_eof, decide_eq_true_eq]
    omega
  rw [h_read]
  refine ⟨h.answered, h_flatten, ?_, ?_, ?_, ?_, ?_⟩
  · intro h_last
    rw [h_flatten, h_end.mp h_last, List.take_length]
  · dsimp only
    omega
  · exact h_end.trans (and_iff_right (List.concat_ne_nil _ _)).symm
  -- an empty chunk can only come for an empty file
  · intro chunk h_chunk h_empty
    rcases List.mem_append.mp h_chunk with h_old | h_new
    · exact h.nonempty chunk h_old h_empty
    · -- Nothing is left, and nothing has been read.
      rw [List.mem_singleton.mp h_new] at h_empty
      rw [h_empty, List.length_nil] at h_part
      have h_end : s.offset = x.data.length := by omega
      have h_none : s.chunks = [] := by
        by_contra h_some
        rw [h.eof.mpr ⟨h_some, h_end⟩] at h_more
        cases h_more
      have h_begin := h.length_flatten
      rw [h_none, List.flatten_nil, List.length_nil, h_end] at h_begin
      exact List.length_eq_zero_iff.mp h_begin.symm
  · dsimp only
    rw [List.length_append, List.length_singleton]
    omega

/-- **The artifact is read as it is, whatever lengths are asked for**: in a run of requests for a
stored artifact, everything is as it should be in each state if and only if no length that is asked
for is converted to a negative number. -/
theorem reassembles_iff (h_owner : x.artifact.sessionID ≠ "")
    (h_size : x.data.length ≤ Artifacts.maxArtifactSize) {es : List (Call κ)}
    (h : (machine κ overflow x).Runs (machine κ overflow x).init es) :
    (∀ es₁, es₁ <+: es → Sound x ((machine κ overflow x).exec (machine κ overflow x).init es₁)) ↔
      ((machine κ overflow x).restrict (Convertible overflow)).Runs
        (machine κ overflow x).init es := by
  refine h.restrict_iff (I := Sound x) .init ?_ (fun s h_sound => h_sound) ?_
  -- a length that converts is cut to what is left
  · intro s e h_sound he h_length
    obtain ⟨h_more, -, h_metadata, h_session, h_chunk⟩ := he
    have h_ok := artifactRead_ok h_metadata h_session h_chunk h_owner h_size h_sound.offset h_length
    show Sound x (s.read _)
    rw [h_ok]
    exact h_sound.next h_more (span_pos h_length) rfl rfl rfl
  -- one that overflows to a negative number is refused
  · intro s e h_sound he h_length h_next
    obtain ⟨-, -, h_metadata, h_session, h_chunk⟩ := he
    obtain ⟨rpcErr, h_error⟩ : ∃ rpcErr, artifactRead overflow e.at' (x.params s.offset e.length) =
        .error rpcErr := artifactRead_error h_metadata h_session h_chunk h_owner h_length
    have h_answered := h_next.answered
    change (s.read (artifactRead overflow e.at' _)).failed = false at h_answered
    rw [h_error] at h_answered
    cases h_answered

/-- A text of three bytes. -/
def sample : Stored where
  cfg := { artifactRoot := "/artifacts", sha256 := fun _ => "", leaseTTL := hour }
  request :=
    { sessionID := "ses_1"
      tabID := "7"
      kind := "export"
      mimeType := "text/plain"
      fileName := "page.txt"
      data := [98, 121, 101]
      ttl := 0 }
  id := "art_1"
  createdAt := 0

/-- A daemon that has stored it. -/
def sampleDaemon : Daemon Unit where
  manager := ((Manager.new hour).openSession 0 "ses_1" "" "").manager.storeArtifact sample.artifact
    |>.manager
  files path := if path = sample.artifact.path then some sample.data else none
  now := minute

/-- The artifact of the sample is available. -/
theorem available_sample : Available sample sampleDaemon where
  artifact := rfl
  current := by decide
  file := by simp [sampleDaemon]
  session := rfl

/-- A request for a length. -/
def ask (length : ℕ) : Call Unit :=
  ⟨⟨sampleDaemon, sampleDaemon, sampleDaemon⟩, some (NativeMessaging.number length)⟩

/-- What machines of one kind make of numbers that are too large. -/
def amd64 (_ : ℚ) : ℤ := -2 ^ 63

/-- The client may ask for any length. -/
theorem runs_ask (length : ℕ) :
    (machine Unit amd64 sample).Runs (machine Unit amd64 sample).init [ask length] :=
  ⟨⟨rfl, rfl, available_sample, available_sample, available_sample⟩, trivial⟩

/-- The text is read in one chunk. -/
theorem reassembles_iff_sample : (machine Unit amd64 sample).Runs {} [ask 524288] ∧
    ∀ es₁, es₁ <+: [ask 524288] →
      Sound sample ((machine Unit amd64 sample).exec (machine Unit amd64 sample).init es₁) :=
  ⟨runs_ask 524288, (reassembles_iff (by decide) (by decide) (runs_ask 524288)).mpr
    ⟨⟨(runs_ask 524288).1, by decide +kernel⟩, trivial⟩⟩

/-- The greatest length of 64 bits is rounded up, and becomes negative. -/
theorem not_reassembles_greatestLength :
    ¬ ∀ es : List (Call Unit),
      (machine Unit amd64 sample).Runs (machine Unit amd64 sample).init es →
      Sound sample ((machine Unit amd64 sample).exec (machine Unit amd64 sample).init es) := by
  intro h
  have h_overflow : ¬ 0 ≤ int64Of amd64 (some (NativeMessaging.number 9223372036854775807)) := by
    decide +kernel
  obtain ⟨rpcErr, h_error⟩ : ∃ rpcErr, artifactRead amd64 (ask 9223372036854775807).at'
      (sample.params 0 (ask 9223372036854775807).length) = .error rpcErr :=
    artifactRead_error available_sample available_sample available_sample (by decide) h_overflow
  have h_answered := (h [ask 9223372036854775807] (runs_ask _)).answered
  change (Client.read {} (artifactRead amd64 _ (sample.params 0 _))).failed = false at h_answered
  rw [h_error] at h_answered
  cases h_answered

end BrowserControl.Server.ArtifactRead
