import BrowserControl.Encoding.Bytes
import BrowserControl.Encoding.JsonReader
import Mathlib.Data.Rat.Defs
import Mathlib.Algebra.Order.Field.Rat
import Mathlib.Algebra.Field.Rat

/-!
# Chunks of native messages

A message that is too long for the native messaging pipe is cut into chunks. Each chunk travels in
an envelope, a JSON object with one member `__bc_chunk`. Both sides write the same text
(`chunkJson`); its strings have no character that one of them would escape. They do not read it
alike: the host decodes into a structure, field by field and whatever the case of a name is
(`unmarshal`), and the extension tests the value it has parsed (`isChunkEnvelope`).

`digest` stands for SHA-256 throughout: nothing here depends on more than its length.
-/

namespace BrowserControl.NativeMessaging

open Encoding

/-- A text as it is sent. -/
abbrev Bytes := List UInt8

/-- The longest frame that Chrome takes. -/
def MaxHostToChrome : ℕ := 1024 * 1024

/-- The bytes of the message in a chunk, if the host is not told otherwise. -/
def DefaultChunkSize : ℕ := 512 * 1024

/-- The longest message that the host puts together. -/
def MaxAssembledSize : ℕ := 128 * 1024 * 1024

/-! The extension's names for the same limits. -/

/-- The bytes of the message in a chunk of the extension. -/
def CHUNK_BYTES : ℕ := 512 * 1024

/-- The longest message that the extension sends in one frame. -/
def MAX_DIRECT_BYTES : ℕ := 1024 * 1024

/-- The longest message that the extension puts together. -/
def MAX_ASSEMBLED_BYTES : ℕ := 128 * 1024 * 1024

/-- The digest of a message as both sides write it. -/
def digestText (digest : Bytes → Vector UInt8 32) (bytes : Bytes) : String :=
  String.ofList (hex (digest bytes).toList)

/-! ### JSON texts -/

/-- How deep the host reads a JSON text. -/
def maxNestingDepth : ℕ := 10000

/-- The value of a text, as the host reads it. -/
def parse (text : Bytes) : Option Json := Reader.read maxNestingDepth (decodeUtf8 text)

/-- `json.Valid` -/
def valid (text : Bytes) : Bool := (parse text).isSome

/-- `JSON.parse(new TextDecoder().decode(text))`. No text of this length is nested deeper than the
limit that is put here. -/
def jsonParse (text : Bytes) : Option Json :=
  Reader.read (text.length + maxNestingDepth) (decodeUtf8 text)

/-- A number without a sign. -/
def number (n : ℕ) : Json := .num (Reader.ofNat n)

/-! ### Envelopes -/

/-- What a chunk says. -/
structure Chunk where
  version : ℤ
  id : String
  index : ℤ
  total : ℤ
  sha256 : String
  data : String
  deriving DecidableEq

/-- The envelope of a chunk. -/
def chunkJson (id : String) (index total : ℕ) (sha256 data : String) : Json :=
  .obj [("__bc_chunk", .obj [("version", number 1), ("id", .str id), ("index", number index),
    ("total", number total), ("sha256", .str sha256), ("data", .str data)])]

/-- The text of an envelope. -/
def marshal (id : String) (index total : ℕ) (sha256 data : String) : Bytes :=
  encodeUtf8 (chunkJson id index total sha256 data).encode

/-! ### The envelope as the host reads it -/

/-- The letters that differ only in case from an ASCII letter are folded into it. -/
def foldRune (c : Char) : Char :=
  if c = '\u212A' then 'K' else if c = '\u017F' then 'S' else c.toUpper

/-- The name of a field, as `encoding/json` compares it. -/
def foldName (name : String) : List Char := name.toList.map foldRune

/-- An integer of 64 bits. There is no fraction and no exponent. -/
def parseInt (literal : List Char) : Option ℤ :=
  let n : Option ℤ := match literal with
    | '-' :: digits =>
      if digits.all Char.isDigit then some (-(Nat.ofDigitChars 10 digits 0)) else none
    | digits => if digits.all Char.isDigit then some (Nat.ofDigitChars 10 digits 0) else none
  n.filter fun n => -2 ^ 63 ≤ n ∧ n < 2 ^ 63

/-- A value for a field of type `int`; `null` leaves the field as it is. -/
def intValue (old : ℤ) : Json → Option ℤ
  | .null => some old
  | .num n => parseInt n.literal
  | _ => none

/-- A value for a field of type `string`. -/
def stringValue (old : String) : Json → Option String
  | .null => some old
  | .str s => some s
  | _ => none

/-- A field of a chunk is read. A name that no field has is left out. -/
def setField (c : Chunk) (field : String × Json) : Option Chunk :=
  -- `encoding/json` compares the names of the fields without case.
  if foldName field.1 = foldName "version" then
    (intValue c.version field.2).map fun n => { c with version := n }
  else if foldName field.1 = foldName "id" then
    (stringValue c.id field.2).map fun s => { c with id := s }
  else if foldName field.1 = foldName "index" then
    (intValue c.index field.2).map fun n => { c with index := n }
  else if foldName field.1 = foldName "total" then
    (intValue c.total field.2).map fun n => { c with total := n }
  else if foldName field.1 = foldName "sha256" then
    (stringValue c.sha256 field.2).map fun s => { c with sha256 := s }
  else if foldName field.1 = foldName "data" then
    (stringValue c.data field.2).map fun s => { c with data := s }
  -- An unknown field is ignored.
  else some c

/-- The member of the envelope is read. -/
def setChunk (envelope : Option Chunk) (field : String × Json) : Option (Option Chunk) :=
  if foldName field.1 = foldName "__bc_chunk" then
    match field.2 with
    | .null => some none
    | .obj fields => (fields.foldlM setField (envelope.getD ⟨0, "", 0, 0, "", ""⟩)).map some
    | _ => none
  else some envelope

/-- `json.Unmarshal` of a value into a `chunkEnvelope`. -/
def unmarshal : Json → Option (Option Chunk)
  | .null => some none
  | .obj fields => fields.foldlM setChunk none
  | _ => none

/-! ### The envelope as the extension reads it -/

/-- The digits, the fraction and the exponent of a number. -/
def unsignedValue (literal : List Char) : ℚ :=
  let digits := literal.takeWhile Char.isDigit
  let rest := literal.dropWhile Char.isDigit
  let fraction := match rest with
    | '.' :: rest => rest.takeWhile Char.isDigit
    | _ => []
  let exponent : ℤ := match rest.dropWhile fun c => c ≠ 'e' ∧ c ≠ 'E' with
    | _ :: '-' :: digits => -(Nat.ofDigitChars 10 digits 0)
    | _ :: '+' :: digits => Nat.ofDigitChars 10 digits 0
    | _ :: digits => Nat.ofDigitChars 10 digits 0
    | [] => 0
  Nat.ofDigitChars 10 (digits ++ fraction) 0 * 10 ^ (exponent - fraction.length)

/-- The number of a literal. It is not rounded. -/
def numberValue (n : Number) : ℚ :=
  match n.literal with
  | '-' :: literal => -unsignedValue literal
  | literal => unsignedValue literal

/-- `Number.isSafeInteger`, and the integer. -/
def safeInteger : Option Json → Option ℤ
  | some (.num n) =>
    let value := numberValue n
    if value.den = 1 ∧ |value.num| ≤ 2 ^ 53 - 1 then some value.num else none
  | _ => none

/-- The member of an object that has been parsed: of several with one name it is the last. -/
def property (fields : List (String × Json)) (name : String) : Option Json :=
  (fields.reverse.find? (·.1 = name)).map Prod.snd

/-- A string. -/
def asString : Option Json → Option String
  | some (.str s) => some s
  | _ => none

/-- `/^[a-f0-9]{64}$/` -/
def isSha256 (s : String) : Bool := s.toList.length = 64 && s.toList.all (· ∈ hexDigits)

/-- `isChunkEnvelope`, and the chunk. -/
def isChunkEnvelope (value : Json) : Option Chunk := do
  let .obj fields := value | none
  let some (.obj chunk) := property fields "__bc_chunk" | none
  let some (.num version) := property chunk "version" | none
  guard (numberValue version = 1)
  let id ← asString (property chunk "id")
  let index ← safeInteger (property chunk "index")
  let total ← safeInteger (property chunk "total")
  let sha256 ← (asString (property chunk "sha256")).filter isSha256
  let data ← asString (property chunk "data")
  pure ⟨1, id, index, total, sha256, data⟩

/-! ### Cutting -/

/-- The part of a message in a chunk. -/
def slice (size : ℕ) (bytes : Bytes) (index : ℕ) : Bytes := (bytes.drop (index * size)).take size

/-- How many chunks a message has. -/
def totalChunks (size : ℕ) (bytes : Bytes) : ℕ := (bytes.length + size - 1) / size

/-- A chunk of a message, in its envelope. -/
def chunkFrame (digest : Bytes → Vector UInt8 32) (id : String) (size : ℕ) (bytes : Bytes)
    (index : ℕ) : Bytes :=
  marshal id index (totalChunks size bytes) (digestText digest bytes)
    (String.ofList (Base64.encode (slice size bytes index)))

/-- The size of a chunk that is asked for, or the usual one. -/
def clampChunkSize (chunkSize : ℤ) : ℕ :=
  if chunkSize ≤ 0 ∨ chunkSize > DefaultChunkSize then DefaultChunkSize else chunkSize.toNat

/-- A frame that fits the pipe. -/
def checkFrame (frame : Bytes) : Except String Bytes :=
  if frame.length > MaxHostToChrome then .error "encoded chunk exceeds native messaging limit"
  else .ok frame

/-- `Encode`. `random` is what `rand.Read` gives, if it gives anything. -/
def encode (digest : Bytes → Vector UInt8 32) (random : Option (Vector UInt8 12)) (raw : Bytes)
    (chunkSize : ℤ) : Except String (List Bytes) :=
  if ¬ valid raw then .error "outbound native message is not valid JSON"
  else if raw.length ≤ MaxHostToChrome then .ok [raw]
  else
    match random with
    | none => .error "create chunk id"
    | some idBytes =>
      let id := String.ofList (hex idBytes.toList)
      let size := clampChunkSize chunkSize
      (List.range (totalChunks size raw)).mapM fun index =>
        checkFrame (chunkFrame digest id size raw index)

/-- `randomId("chunk")` -/
def randomChunkId (random : Vector UInt8 12) : String :=
  "chunk_" ++ String.ofList (hex random.toList)

/-- `encodeMessage` for the message with this text, up to the texts of the frames that are posted.
A message that is not too long is posted as it is. -/
def encodeMessage (digest : Bytes → Vector UInt8 32) (random : Vector UInt8 12) (bytes : Bytes) :
    Except String (List Bytes) :=
  if bytes.length ≤ MAX_DIRECT_BYTES then .ok [bytes]
  else if bytes.length > MAX_ASSEMBLED_BYTES then
    .error ("native message exceeds " ++ toString MAX_ASSEMBLED_BYTES ++ " bytes")
  else
    .ok ((List.range (totalChunks CHUNK_BYTES bytes)).map
      (chunkFrame digest (randomChunkId random) CHUNK_BYTES bytes))

/-! ### An envelope is read back -/

/-- The object of a chunk can be read. -/
theorem readable_chunkJson (id : String) (index total : ℕ) (sha256 data : String) {limit : ℕ}
    (h : 2 ≤ limit) : Reader.Readable (chunkJson id index total sha256 data) limit := by
  have h_numbers : Reader.isNumberLiteral (Reader.ofNat 1).literal ∧
      Reader.isNumberLiteral (Reader.ofNat index).literal ∧
      Reader.isNumberLiteral (Reader.ofNat total).literal :=
    ⟨Reader.isNumberLiteral_ofNat 1, Reader.isNumberLiteral_ofNat index,
      Reader.isNumberLiteral_ofNat total⟩
  obtain ⟨h_one, h_index, h_total⟩ := h_numbers
  refine ⟨by omega, ?_, trivial⟩
  exact ⟨by omega, h_one, trivial, h_index, h_total, trivial, trivial, trivial⟩

/-- The host reads a chunk as it was written. -/
theorem parse_marshal (id : String) (index total : ℕ) (sha256 data : String) :
    parse (marshal id index total sha256 data) =
      some (chunkJson id index total sha256 data) := by
  rw [parse, marshal, decodeUtf8_encodeUtf8]
  exact Reader.read_encode (readable_chunkJson id index total sha256 data (by decide))

/-- What the host reads, the extension reads alike. -/
theorem jsonParse_of_parse {text : Bytes} {v : Json} (h : parse text = some v) :
    jsonParse text = some v := Reader.read_mono (Nat.le_add_left ..) h

/-- A chunk is well formed. -/
theorem valid_marshal (id : String) (index total : ℕ) (sha256 data : String) :
    valid (marshal id index total sha256 data) := by
  rw [valid, parse_marshal]
  rfl

/-- So does the extension. -/
theorem jsonParse_marshal (id : String) (index total : ℕ) (sha256 data : String) :
    jsonParse (marshal id index total sha256 data) =
      some (chunkJson id index total sha256 data) := by
  have h_two : 2 ≤ (marshal id index total sha256 data).length + maxNestingDepth := by
    unfold maxNestingDepth
    omega
  rw [jsonParse]
  nth_rewrite 2 [marshal]
  rw [decodeUtf8_encodeUtf8]
  exact Reader.read_encode (readable_chunkJson id index total sha256 data h_two)

/-- The integer of a natural, before its size is looked at. -/
theorem parseInt_toDigits (n : ℕ) : parseInt (Nat.toDigits 10 n) =
    (some (n : ℤ)).filter fun n => -2 ^ 63 ≤ n ∧ n < 2 ^ 63 := by
  have h_all : (Nat.toDigits 10 n).all Char.isDigit :=
    List.all_eq_true.mpr fun c h_c => Nat.isDigit_of_mem_toDigits (by decide) (by decide) h_c
  unfold parseInt
  split
  case h_1 digits h_eq =>
    have h_sign : '-' ∈ Nat.toDigits 10 n := h_eq ▸ List.mem_cons_self
    exact absurd (List.all_eq_true.mp h_all _ h_sign) (by decide)
  case h_2 => rw [if_pos h_all, Nat.ofDigitChars_ten_toDigits]

/-- An `int` is read. -/
theorem parseInt_ofNat {n : ℕ} (h : n < 2 ^ 63) : parseInt (Reader.ofNat n).literal = some n := by
  refine (parseInt_toDigits n).trans (Option.filter_eq_some_iff.mpr ⟨rfl, decide_eq_true ?_⟩)
  omega

/-- A number that is no `int64` is refused. -/
theorem parseInt_of_overflow {n : ℕ} (h : 2 ^ 63 ≤ n) :
    parseInt (Reader.ofNat n).literal = none := by
  refine (parseInt_toDigits n).trans (Option.filter_eq_none_iff.mpr ?_)
  rintro _ ⟨⟩
  rw [decide_eq_true_eq]
  omega

/-- The value of an `int` in a chunk. -/
theorem intValue_number (old : ℤ) {n : ℕ} (h : n < 2 ^ 63) : intValue old (number n) = some n :=
  parseInt_ofNat h

/-- The fields of an envelope, in their order. -/
theorem setField_chunkJson (c : Chunk) (id : String) {index total : ℕ} (sha256 data : String)
    (h_index : index < 2 ^ 63) (h_total : total < 2 ^ 63) :
    setField c ("version", number 1) = some { c with version := 1 } ∧
      setField c ("id", .str id) = some { c with id := id } ∧
      setField c ("index", number index) = some { c with index := index } ∧
      setField c ("total", number total) = some { c with total := total } ∧
      setField c ("sha256", .str sha256) = some { c with sha256 := sha256 } ∧
      setField c ("data", .str data) = some { c with data := data } := by
  refine ⟨?_, ?_, ?_, ?_, ?_, ?_⟩ <;> unfold setField <;> dsimp only
  -- the fields in the order of the frame, each found by its name
  · rw [if_pos rfl, intValue_number _ (n := 1) (by norm_num)]
    rfl
  · rw [if_neg (by decide), if_pos rfl]
    rfl
  · rw [if_neg (by decide), if_neg (by decide), if_pos rfl, intValue_number _ h_index]
    rfl
  · rw [if_neg (by decide), if_neg (by decide), if_neg (by decide), if_pos rfl,
      intValue_number _ h_total]
    rfl
  · rw [if_neg (by decide), if_neg (by decide), if_neg (by decide), if_neg (by decide), if_pos rfl]
    rfl
  · rw [if_neg (by decide), if_neg (by decide), if_neg (by decide), if_neg (by decide),
      if_neg (by decide), if_pos rfl]
    rfl

/-- The host reads the chunk that was put into the envelope. -/
theorem unmarshal_chunkJson (id : String) {index total : ℕ} (sha256 data : String)
    (h_index : index < 2 ^ 63) (h_total : total < 2 ^ 63) :
    unmarshal (chunkJson id index total sha256 data) =
      some (some ⟨1, id, index, total, sha256, data⟩) := by
  have h_fields (c : Chunk) := setField_chunkJson c id sha256 data h_index h_total
  show (setChunk none ("__bc_chunk", _)).bind (fun envelope => some envelope) = _
  unfold setChunk
  rw [if_pos rfl]
  simp only [List.foldlM_cons, List.foldlM_nil, (h_fields _).1, (h_fields _).2.1,
    (h_fields _).2.2.1, (h_fields _).2.2.2.1, (h_fields _).2.2.2.2.1, (h_fields _).2.2.2.2.2,
    Option.bind_eq_bind, Option.bind_some, Option.pure_def, Option.map_some]

/-- A total that is no integer of 64 bits is not read. -/
theorem unmarshal_chunkJson_of_overflow (id : String) {index total : ℕ} (sha256 data : String)
    (h_index : index < 2 ^ 63) (h_total : 2 ^ 63 ≤ total) :
    unmarshal (chunkJson id index total sha256 data) = none := by
  have h_fields (c : Chunk) := setField_chunkJson c id sha256 data h_index (by decide : 0 < 2 ^ 63)
  -- The total does not fit an `int`.
  have h_overflow (c : Chunk) : setField c ("total", number total) = none := by
    unfold setField
    dsimp only
    rw [if_neg (by decide), if_neg (by decide), if_neg (by decide), if_pos rfl]
    have h_none : intValue c.total (number total) = none := parseInt_of_overflow h_total
    rw [h_none]
    rfl
  show (setChunk none ("__bc_chunk", _)).bind (fun envelope => some envelope) = _
  unfold setChunk
  rw [if_pos rfl]
  simp only [List.foldlM_cons, (h_fields _).1, (h_fields _).2.1, (h_fields _).2.2.1, h_overflow,
    Option.bind_eq_bind, Option.bind_some, Option.bind_none, Option.map_none]

/-- The number of a natural. -/
theorem numberValue_ofNat (n : ℕ) : numberValue (Reader.ofNat n) = n := by
  have h_span := Reader.spanDigits_toDigits n
  have h_all : ∀ c ∈ Nat.toDigits 10 n, c.isDigit :=
    fun c h_c => Nat.isDigit_of_mem_toDigits (by decide) (by decide) h_c
  -- The digits of a number are read back as the number.
  have h_unsigned : unsignedValue (Nat.toDigits 10 n) = n := by
    unfold unsignedValue
    rw [Prod.mk.inj h_span |>.1, Prod.mk.inj h_span |>.2]
    simp [Nat.ofDigitChars_ten_toDigits]
  unfold numberValue
  show (match Nat.toDigits 10 n with
    | '-' :: literal => -unsignedValue literal
    | literal => unsignedValue literal) = _
  split
  · rename_i digits h_eq
    -- Digits have no sign.
    have h_sign : '-' ∈ Nat.toDigits 10 n := h_eq ▸ List.mem_cons_self
    exact absurd (h_all _ h_sign) (by decide)
  · exact h_unsigned

/-- The value of a safe integer in a chunk. -/
theorem safeInteger_number {n : ℕ} (h : n ≤ 2 ^ 53 - 1) :
    safeInteger (some (number n)) = some (n : ℤ) := by
  show (if (numberValue (Reader.ofNat n)).den = 1 ∧
    |(numberValue (Reader.ofNat n)).num| ≤ 2 ^ 53 - 1 then some (numberValue (Reader.ofNat n)).num
    else none) = _
  rw [numberValue_ofNat]
  have h_abs : |((n : ℚ)).num| ≤ 2 ^ 53 - 1 := by
    rw [Rat.num_natCast, Nat.abs_cast]
    omega
  rw [if_pos ⟨Rat.den_natCast n, h_abs⟩, Rat.num_natCast]

/-- The digest is a digest. -/
theorem isSha256_digestText (digest : Bytes → Vector UInt8 32) (bytes : Bytes) :
    isSha256 (digestText digest bytes) := by
  unfold isSha256 digestText
  rw [String.toList_ofList, Bool.and_eq_true, decide_eq_true_eq, List.all_eq_true]
  refine ⟨?_, fun c h_c => decide_eq_true (mem_hexDigits h_c)⟩
  rw [length_hex, Vector.length_toList]

/-- The extension reads the chunk that was put into the envelope. -/
theorem isChunkEnvelope_chunkJson (id : String) {index total : ℕ} {sha256 : String} (data : String)
    (h_index : index ≤ 2 ^ 53 - 1) (h_total : total ≤ 2 ^ 53 - 1) (h_sha256 : isSha256 sha256) :
    isChunkEnvelope (chunkJson id index total sha256 data) =
      some ⟨1, id, index, total, sha256, data⟩ := by
  have h_one : numberValue (Reader.ofNat 1) = 1 := by
    rw [numberValue_ofNat]
    rfl
  have h_index' : safeInteger (some (.num (Reader.ofNat index))) = some (index : ℤ) :=
    safeInteger_number h_index
  have h_total' : safeInteger (some (.num (Reader.ofNat total))) = some (total : ℤ) :=
    safeInteger_number h_total
  have h_filter : (some sha256).filter isSha256 = some sha256 :=
    Option.filter_eq_some_iff.mpr ⟨rfl, h_sha256⟩
  simp [isChunkEnvelope, chunkJson, property, asString, number, h_one, h_index', h_total',
    h_filter, guard]

/-! ### The parts of a message -/

/-- A slice is not longer than its size. -/
theorem length_slice_le (size : ℕ) (bytes : Bytes) (index : ℕ) :
    (slice size bytes index).length ≤ size := List.length_take_le ..

/-- The first parts are the front of the message. -/
theorem flatMap_slice (size : ℕ) (bytes : Bytes) (n : ℕ) :
    (List.range n).flatMap (slice size bytes) = bytes.take (n * size) := by
  induction n with
  | zero => rw [Nat.zero_mul, List.take_zero]; rfl
  | succ n ih =>
    rw [List.range_succ, List.flatMap_append, ih, Nat.succ_mul, List.take_add,
      List.flatMap_singleton, slice]

/-- The slices hold the whole message. -/
theorem length_le_totalChunks {size : ℕ} (h : 0 < size) (bytes : Bytes) :
    bytes.length ≤ totalChunks size bytes * size := by
  have h_div := Nat.lt_div_mul_add (a := bytes.length + size - 1) h
  unfold totalChunks
  omega

/-- The parts together are the message. -/
theorem flatMap_slice_totalChunks {size : ℕ} (h : 0 < size) (bytes : Bytes) :
    (List.range (totalChunks size bytes)).flatMap (slice size bytes) = bytes := by
  rw [flatMap_slice, List.take_of_length_le (length_le_totalChunks h bytes)]

/-- The size of a chunk is positive. -/
theorem clampChunkSize_pos (chunkSize : ℤ) : 0 < clampChunkSize chunkSize := by
  unfold clampChunkSize
  split_ifs with h
  · decide
  · omega

/-- And not more than the default. -/
theorem clampChunkSize_le (chunkSize : ℤ) : clampChunkSize chunkSize ≤ DefaultChunkSize := by
  unfold clampChunkSize
  split_ifs with h
  · exact le_rfl
  · omega

/-! ### The length of a frame -/

theorem length_encodeUtf8_append (cs ds : List Char) :
    (encodeUtf8 (cs ++ ds)).length = (encodeUtf8 cs).length + (encodeUtf8 ds).length := by
  rw [encodeUtf8, List.flatMap_append, List.length_append]
  rfl

theorem length_encodeUtf8_cons (c : Char) (cs : List Char) :
    (encodeUtf8 (c :: cs)).length = c.utf8Size + (encodeUtf8 cs).length := by
  rw [encodeUtf8, List.flatMap_cons, List.length_append, String.length_utf8EncodeChar]
  rfl

/-- The text of a string without escapes is as long as the string and its quotes. -/
theorem length_encodeUtf8_quote {s : String}
    (h : ∀ c ∈ s.toList, c ∉ escaped ∧ c.utf8Size = 1) :
    (encodeUtf8 (quote s)).length = s.toList.length + 2 := by
  have h_text : quote s = '"' :: (s.toList ++ ['"']) := by
    rw [quote, encodeChars]
    congr 2
    calc s.toList.flatMap escape = s.toList.flatMap fun c => [c] :=
          List.flatMap_congr fun c h_c => if_neg (h c h_c).1
      _ = s.toList := List.flatMap_singleton' s.toList
  rw [h_text, length_encodeUtf8_cons, length_encodeUtf8_append,
    length_encodeUtf8 fun c h_c => (h c h_c).2, Nat.add_comm]
  rfl

/-- The digest is plain text. -/
theorem plain_hexDigits : ∀ c ∈ hexDigits, c ∉ escaped ∧ c.utf8Size = 1 := by decide

/-- So is base64. -/
theorem plain_alphabet : ∀ c ∈ '=' :: Base64.alphabet, c ∉ escaped ∧ c.utf8Size = 1 := by
  decide

/-- An index has at most 19 digits. -/
theorem length_encodeUtf8_number {n : ℕ} (h : n < 2 ^ 63) :
    (encodeUtf8 (number n).encode).length ≤ 19 := by
  have h_one : ∀ c ∈ Nat.toDigits 10 n, c.utf8Size = 1 := by
    intro c h_c
    have h_digit : c.isDigit := Nat.isDigit_of_mem_toDigits (by decide) (by decide) h_c
    rw [Char.isDigit, Bool.and_eq_true, decide_eq_true_eq, decide_eq_true_eq] at h_digit
    exact Char.utf8Size_eq_one_iff.mpr (UInt32.le_trans h_digit.2 (by decide))
  show (encodeUtf8 (Nat.toDigits 10 n)).length ≤ 19
  rw [length_encodeUtf8 h_one, Nat.length_toDigits_le_iff (by decide) (by decide)]
  exact h.trans (by norm_num)

/-- A frame of a chunk fits the pipe. -/
theorem length_chunkFrame_le_of_plain (digest : Bytes → Vector UInt8 32) {id : String} {size : ℕ}
    {bytes : Bytes} {index : ℕ}
    (h_id : id.toList.length ≤ 100 ∧ ∀ c ∈ id.toList, c ∉ escaped ∧ c.utf8Size = 1)
    (h_size : size ≤ DefaultChunkSize) (h_index : index < 2 ^ 63)
    (h_total : totalChunks size bytes < 2 ^ 63) :
    (chunkFrame digest id size bytes index).length ≤ MaxHostToChrome := by
  have h_quote_id := length_encodeUtf8_quote h_id.2
  -- the digest: 64 hexadecimal digits between quotes
  have h_sha256 : (encodeUtf8 (quote (digestText digest bytes))).length = 66 := by
    have h_hex : (digestText digest bytes).toList = hex (digest bytes).toList :=
      String.toList_ofList ..
    rw [length_encodeUtf8_quote, h_hex, length_hex, Vector.length_toList]
    intro c h_c
    rw [h_hex] at h_c
    exact plain_hexDigits c (mem_hexDigits h_c)
  -- the data: four characters for every three bytes
  have h_data :
      (encodeUtf8 (quote (String.ofList (Base64.encode (slice size bytes index))))).length ≤
      4 * ((DefaultChunkSize + 2) / 3) + 2 := by
    rw [length_encodeUtf8_quote, String.toList_ofList, Base64.length_encode]
    · have h_slice := length_slice_le size bytes index
      omega
    · intro c h_c
      rw [String.toList_ofList] at h_c
      exact plain_alphabet c (Base64.mem_encode h_c)
  have h_number_index := length_encodeUtf8_number h_index
  have h_number_total := length_encodeUtf8_number h_total
  -- the names of the fields and the punctuation
  have h_words : (encodeUtf8 (quote "__bc_chunk")).length = 12 ∧
      (encodeUtf8 (quote "version")).length = 9 ∧ (encodeUtf8 (quote "id")).length = 4 ∧
      (encodeUtf8 (quote "index")).length = 7 ∧ (encodeUtf8 (quote "total")).length = 7 ∧
      (encodeUtf8 (quote "sha256")).length = 8 ∧ (encodeUtf8 (quote "data")).length = 6 ∧
      (encodeUtf8 (number 1).encode).length = 1 := by decide
  have h_chars : '{'.utf8Size = 1 ∧ '}'.utf8Size = 1 ∧ ':'.utf8Size = 1 ∧ ','.utf8Size = 1 := by
    decide
  unfold chunkFrame marshal chunkJson
  simp only [Json.encode, encodeFields, encodeMoreFields, encodeField, length_encodeUtf8_append,
    length_encodeUtf8_cons]
  have h_nil : (encodeUtf8 []).length = 0 := rfl
  obtain ⟨h_open, h_close, h_colon, h_comma⟩ := h_chars
  obtain ⟨h_chunk, h_version, h_idName, h_indexName, h_totalName, h_sha256Name, h_dataName,
    h_one⟩ := h_words
  obtain ⟨h_id, -⟩ := h_id
  unfold DefaultChunkSize at h_data
  unfold MaxHostToChrome
  omega

/-- A chunk of the default size fits a frame. -/
theorem length_chunkFrame_le (digest : Bytes → Vector UInt8 32) {id : String} {size : ℕ}
    {bytes : Bytes} {index : ℕ} (h_id : id.toList.length ≤ 100 ∧ ∀ c ∈ id.toList, c ∈ hexDigits)
    (h_size : size ≤ DefaultChunkSize) (h_index : index < 2 ^ 63)
    (h_total : totalChunks size bytes < 2 ^ 63) :
    (chunkFrame digest id size bytes index).length ≤ MaxHostToChrome :=
  length_chunkFrame_le_of_plain digest ⟨h_id.1, fun c h_c => plain_hexDigits c (h_id.2 c h_c)⟩
    h_size h_index h_total

end BrowserControl.NativeMessaging
