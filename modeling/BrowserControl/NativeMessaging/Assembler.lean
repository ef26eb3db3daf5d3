import BrowserControl.NativeMessaging.Chunk
import Mathlib.Logic.Function.Basic

/-!
# The two assemblers

Both sides put chunks together again. The `Assembler` of the host keeps the parts of a stream in a
map and forgets a stream that has not been heard of for a minute. The `ChunkAssembler` of the
extension keeps them in an array, has room for 32 streams, and forgets a stream half a minute after
its first chunk.

Each call answers with an error, with a message, or with nothing when a stream is not complete.
-/

namespace BrowserControl.NativeMessaging

open Encoding

variable (digest : Bytes → Vector UInt8 32)

/-! ### The host -/

/-- `assembly` -/
structure Assembly where
  total : ℕ
  sha256 : String
  parts : List (ℕ × Bytes)
  size : ℕ
  updatedAt : ℕ
  deriving DecidableEq

/-- The streams that are not complete. -/
abbrev Assembler := String → Option Assembly

/-- `time.Minute`, in nanoseconds. -/
def minute : ℕ := 60 * 10 ^ 9

/-- Streams that have not been heard of are forgotten. -/
def Assembler.prune (a : Assembler) (now : ℕ) : Assembler :=
  fun id => (a id).filter fun item => now - item.updatedAt ≤ minute

/-- A part is put into its stream, unless there is one in its place. -/
def Assembly.add (item : Assembly) (index : ℕ) (part : Bytes) (now : ℕ) : Assembly :=
  if (item.parts.lookup index).isSome then { item with updatedAt := now }
  else { item with
    parts := item.parts ++ [(index, part)], size := item.size + part.length, updatedAt := now }

/-- The checks of a message that has been put together. -/
def checkResult (sha256 : String) (result : Bytes) : Except String (Option Bytes) :=
  if digestText digest result ≠ sha256 then .error "native message chunk checksum mismatch"
  else if ¬ valid result then .error "reassembled native message is not valid JSON"
  else .ok (some result)

/-- The entry of a stream, or a new one. -/
def Assembler.entry (a : Assembler) (now : ℕ) (c : Chunk) : Assembly :=
  (a c.id).getD ⟨c.total.toNat, c.sha256, [], 0, now⟩

/-- What comes of a stream that has got a part: all parts are there, or it waits for more. -/
def Assembler.settle (a : Assembler) (c : Chunk) (item : Assembly) :
    Except String (Option Bytes) × Assembler :=
  if item.size > MaxAssembledSize then
    (.error "reassembled native message exceeds 134217728 bytes", Function.update a c.id none)
  else if item.parts.length ≠ item.total then (.ok none, Function.update a c.id (some item))
  else
    match (List.range item.total).mapM fun index => item.parts.lookup index with
    | none => (.ok none, Function.update a c.id (some item))
    | some parts => (checkResult digest c.sha256 parts.flatten, Function.update a c.id none)

/-- What `Accept` does with a chunk, after its data have been decoded. -/
def Assembler.acceptPart (a : Assembler) (now : ℕ) (c : Chunk) (part : Bytes) :
    Except String (Option Bytes) × Assembler :=
  if (a.entry now c).total ≠ c.total ∨ (a.entry now c).sha256 ≠ c.sha256 then
    (.error "inconsistent native message chunks", Function.update a c.id none)
  else a.settle digest c ((a.entry now c).add c.index.toNat part now)

/-- The metadata of a chunk that `Accept` refuses. -/
def Chunk.Invalid (c : Chunk) : Prop :=
  c.version ≠ 1 ∨ c.id = "" ∨ c.total < 1 ∨ c.total > 4096 ∨ c.index < 0 ∨ c.index ≥ c.total ∨
    c.sha256 = ""
deriving Decidable

/-- `Accept` -/
def Assembler.accept (a : Assembler) (now : ℕ) (frame : Bytes) :
    Except String (Option Bytes) × Assembler :=
  match parse frame with
  | none => (.error "native message is not valid JSON", a)
  | some value =>
    match unmarshal value with
    | none => (.error "json: cannot unmarshal native message", a)
    -- A message in one frame passes through and touches no stream.
    | some none => (.ok (some frame), a)
    | some (some c) =>
      if c.Invalid then (.error "invalid native message chunk metadata", a)
      else
        match Base64.decode c.data.toList with
        -- Up to here nothing was pruned and no stream was touched.
        | none => (.error "decode native message chunk", a)
        | some part => (a.prune now).acceptPart digest now c part

/-- Frames that are accepted one after the other, each at its time. -/
def Assembler.feed (a : Assembler) : List (ℕ × Bytes) → List (Except String (Option Bytes))
  | [] => []
  | frame :: frames =>
    (a.accept digest frame.1 frame.2).1 ::
      Assembler.feed (a.accept digest frame.1 frame.2).2 frames

/-! ### The extension -/

/-- `MAX_ASSEMBLIES` -/
def MAX_ASSEMBLIES : ℕ := 32

/-- `ASSEMBLY_TTL_MS` -/
def ASSEMBLY_TTL_MS : ℕ := 30000

/-- `Assembly` -/
structure ChunkAssembly where
  createdAt : ℕ
  total : ℕ
  sha256 : String
  size : ℕ
  chunks : List (Option Bytes)

/-- The map `#assemblies`. -/
abbrev ChunkAssembler := List (String × ChunkAssembly)

/-- `#prune`: assemblies that are too old are forgotten. -/
def ChunkAssembler.prune (a : ChunkAssembler) (now : ℕ) : ChunkAssembler :=
  a.filter fun entry => ¬ entry.2.createdAt + ASSEMBLY_TTL_MS < now

/-- `Map.delete` -/
def ChunkAssembler.delete (a : ChunkAssembler) (id : String) : ChunkAssembler :=
  a.filter fun entry => entry.1 ≠ id

/-- An assembly that is in the map is changed. -/
def ChunkAssembler.replace (a : ChunkAssembler) (id : String) (assembly : ChunkAssembly) :
    ChunkAssembler :=
  a.map fun entry => if entry.1 = id then (id, assembly) else entry

/-- The assembly of a chunk, which is made if there is none and if there is room. -/
def ChunkAssembler.open (a : ChunkAssembler) (now : ℕ) (c : Chunk) :
    Option (ChunkAssembly × ChunkAssembler) :=
  match a.lookup c.id with
  | some assembly => some (assembly, a)
  | none =>
    if a.length ≥ MAX_ASSEMBLIES then none
    else
      let assembly : ChunkAssembly :=
        ⟨now, c.total.toNat, c.sha256, 0, List.replicate c.total.toNat none⟩
      some (assembly, a ++ [(c.id, assembly)])

/-- A chunk is put into its assembly. -/
def ChunkAssembly.add (assembly : ChunkAssembly) (index : ℕ) (decoded : Bytes) : ChunkAssembly :=
  match (assembly.chunks[index]?).join with
  | some _ => assembly
  | none => { assembly with
      chunks := assembly.chunks.set index (some decoded), size := assembly.size + decoded.length }

/-- The checks of a message that has been put together, and its value. -/
def parseJoined (sha256 : String) (joined : Bytes) : Except String (Option Json) :=
  if digestText digest joined ≠ sha256 then .error "native message chunk checksum mismatch"
  else
    match jsonParse joined with
    | some message => .ok (some message)
    | none => .error "SyntaxError"

/-- What comes of an assembly that has got a chunk. -/
def ChunkAssembler.settle (a : ChunkAssembler) (id : String) (assembly : ChunkAssembly) :
    Except String (Option Json) × ChunkAssembler :=
  if assembly.size > MAX_ASSEMBLED_BYTES then
    (.error "reassembled native message exceeds 134217728 bytes", a.delete id)
  else
    match assembly.chunks.mapM fun chunk => chunk with
    | none => (.ok none, a.replace id assembly)
    | some parts => (parseJoined digest assembly.sha256 parts.flatten, a.delete id)

/-- What `accept` does with a chunk and its assembly. -/
def ChunkAssembler.acceptChunk (a : ChunkAssembler) (assembly : ChunkAssembly) (c : Chunk) :
    Except String (Option Json) × ChunkAssembler :=
  if assembly.total ≠ c.total ∨ assembly.sha256 ≠ c.sha256 then
    (.error "chunk metadata changed within stream", a.delete c.id)
  else
    match Base64.atob c.data.toList with
    | none => (.error "InvalidCharacterError", a)
    | some decoded =>
      if (assembly.chunks[c.index.toNat]?).join.any (· ≠ decoded) then
        (.error "duplicate chunk data changed within stream", a.delete c.id)
      else a.settle digest c.id (assembly.add c.index.toNat decoded)

/-- `accept` for a value that has arrived. -/
def ChunkAssembler.acceptValue (a : ChunkAssembler) (now : ℕ) (value : Json) :
    Except String (Option Json) × ChunkAssembler :=
  let a := a.prune now
  match isChunkEnvelope value with
  | none => (.ok (some value), a)
  | some c =>
    if c.total < 1 ∨ c.total > 4096 ∨ c.index < 0 ∨ c.index ≥ c.total then
      (.error "invalid chunk envelope", a)
    else
      match a.open now c with
      | none => (.error "too many incomplete chunk streams", a)
      | some (assembly, a) => a.acceptChunk digest assembly c

/-- `accept` for a frame. A frame that is not a JSON text does not reach the extension. -/
def ChunkAssembler.accept (a : ChunkAssembler) (now : ℕ) (frame : Bytes) :
    Except String (Option Json) × ChunkAssembler :=
  match jsonParse frame with
  | none => (.ok none, a)
  | some value => a.acceptValue digest now value

/-- Frames that are accepted one after the other, each at its time. -/
def ChunkAssembler.feed (a : ChunkAssembler) :
    List (ℕ × Bytes) → List (Except String (Option Json))
  | [] => []
  | frame :: frames =>
    (a.accept digest frame.1 frame.2).1 ::
      ChunkAssembler.feed (a.accept digest frame.1 frame.2).2 frames

end BrowserControl.NativeMessaging
