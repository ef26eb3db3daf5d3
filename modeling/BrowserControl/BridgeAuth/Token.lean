import BrowserControl.Encoding.Bytes
import BrowserControl.FileSystem.Path
import BrowserControl.Server.Trusted

/-!
# The file of the bridge token

The daemon and the native host agree on a token by a file: `LoadOrCreateToken` creates it with
`O_EXCL` or loads what is there, and `LoadToken` reads it. Nothing locks the file, so a token may be
read while another process still writes it, and a process that fails to write its token removes the
file again.

`machine` interleaves the system calls of any number of processes on one path. A system call may
fail, a process may be killed between two of them, and other programs may change the path and the
files (`Event.other`). `agreement` says that all processes that get a token get the same one when
no other program interferes and no token is removed after all of it is in the file. `torn_stays`
says what a process leaves behind that is killed before that.
-/

namespace BrowserControl.BridgeAuth

open Encoding FileSystem Transition

/-- The bytes of a token. -/
abbrev Token := List UInt8

/-- The length of a token. -/
def tokenBytes : ℕ := 32

/-- The token as it is compared, in base 64 without padding. -/
def encodedToken (token : Token) : String := String.ofList (Base64.digits token)

/-- The mode `0600`. -/
def privatePerm : ℕ := 6 * 64

/-- A file as `Lstat`, `Stat` and `Read` see it. -/
structure Node where
  /-- What `SameFile` compares. -/
  number : ℕ
  regular : Bool
  perm : ℕ
  content : List UInt8

/-- What a path names: a file, or a symbolic link and the file it leads to. -/
inductive Entry where
  | file (i : ℕ)
  | symlink (target : Option ℕ)
  deriving DecidableEq

/-- The file that `Open` opens. -/
def Entry.target : Entry → Option ℕ
  | .file i => some i
  | .symlink target => target

/-- Where a process stands: each phase but the first and the last two is a system call in progress.
-/
inductive Phase where
  | idle
  /-- `OpenFile` with `O_EXCL`. -/
  | creating (token : Token)
  /-- `Write` has written the first `n` bytes. -/
  | writing (i : ℕ) (token : Token) (n : ℕ)
  | syncing (i : ℕ) (token : Token)
  | closing (i : ℕ) (token : Token)
  /-- The deferred `Remove`, where the error is to be returned. -/
  | removing (error : String)
  /-- `Lstat`. -/
  | inspecting
  /-- `Open`, where `Lstat` has seen the file with this number. -/
  | opening (number : ℕ)
  /-- `Stat` of the opened file. -/
  | opened (number i : ℕ)
  /-- `ReadAll` has read these bytes. -/
  | reading (i : ℕ) (got : List UInt8)
  | returned (result : Except String Token)
  | killed
  deriving DecidableEq

/-- The path, the files, and where the processes are. -/
structure State (κ : Type*) where
  entry : Option Entry := none
  nodes : ℕ → Node
  /-- Files from here on do not exist yet. -/
  fresh : ℕ := 0
  phase : κ → Phase := fun _ => .idle

/-- What happens next. -/
inductive Event (κ : Type*) where
  /-- The call of a process, with what `rand.Read` gives. -/
  | loadOrCreateToken (p : κ) (random : Except String Token)
  | loadToken (p : κ)
  /-- A system call succeeds. `n` is the number of a new file, or of the bytes that are written or
  read. -/
  | call (p : κ) (n : ℕ)
  | fail (p : κ) (err : String)
  | kill (p : κ)
  /-- Other programs change the path and the files. -/
  | other (entry : Option Entry) (nodes : ℕ → Node) (fresh : ℕ)

/-- The content after a write at an offset; a hole is filled with zeros. -/
def writeAt (content : List UInt8) (offset : ℕ) (bytes : List UInt8) : List UInt8 :=
  content.takeD offset 0 ++ bytes ++ content.drop (offset + bytes.length)

/-- What is read at an offset. -/
def readAt (content : List UInt8) (offset n : ℕ) : List UInt8 := (content.drop offset).take n

variable {κ : Type*} [DecidableEq κ]

namespace State

variable (s : State κ)

/-- A process goes on. -/
def setPhase (p : κ) (phase : Phase) : State κ :=
  { s with phase := Function.update s.phase p phase }

/-- A process returns an error. -/
def error (p : κ) (text : String) : State κ := s.setPhase p (.returned (.error text))

/-- A file changes. -/
def setNode (i : ℕ) (node : Node) : State κ :=
  { s with nodes := Function.update s.nodes i node }

/-- A new file of mode `0600`: the daemon has cleared the other bits of its umask. -/
def create (p : κ) (token : Token) (number : ℕ) : State κ :=
  { (s.setNode s.fresh ⟨number, true, privatePerm, []⟩).setPhase p (.writing s.fresh token 0) with
    entry := some (.file s.fresh)
    fresh := s.fresh + 1 }

/-- `Write` puts `n` more bytes of the token into the file. -/
def write (p : κ) (i : ℕ) (token : Token) (offset n : ℕ) : State κ :=
  let node := s.nodes i
  let content := writeAt node.content offset ((token.drop offset).take n)
  (s.setNode i { node with content := content }).setPhase p
    (if offset + n = token.length then .syncing i token else .writing i token (offset + n))

/-- The checks of `LoadToken` on what `Lstat` returns. -/
def lstat (p : κ) (entry : Entry) : State κ :=
  match entry with
  | .symlink _ => s.error p "bridge transport token must be a regular file"
  | .file i =>
    if ¬ (s.nodes i).regular then s.error p "bridge transport token must be a regular file"
    else if (s.nodes i).perm ≠ privatePerm then
      s.error p "bridge transport token mode must be 0600"
    else s.setPhase p (.opening (s.nodes i).number)

/-- The checks of `LoadToken` on what it has opened. -/
def fstat (p : κ) (number i : ℕ) : State κ :=
  if number = (s.nodes i).number ∧ (s.nodes i).regular ∧ (s.nodes i).perm = privatePerm then
    s.setPhase p (.reading i [])
  else s.error p "bridge transport token changed while opening"

/-- `Read` returns `n` bytes, and the end of the file when there are none. -/
def read (p : κ) (i : ℕ) (got : List UInt8) (n : ℕ) : State κ :=
  if n = 0 then
    if got.length = tokenBytes then s.setPhase p (.returned (.ok got))
    else s.error p "bridge transport token must contain exactly 32 bytes"
  else s.setPhase p (.reading i (got ++ readAt (s.nodes i).content got.length n))

/-- The bytes that are left to read: `LimitReader` lets through one more than a token has. -/
def unread (i : ℕ) (got : List UInt8) : ℕ :=
  min (tokenBytes + 1 - got.length) ((s.nodes i).content.length - got.length)

/-- The system call of a process succeeds. -/
def call (p : κ) (n : ℕ) : State κ :=
  match s.phase p with
  -- `os.OpenFile` with `O_EXCL`: an entry in the way makes the process read the token instead.
  | .creating token =>
    match s.entry with
    | none => s.create p token n
    | some _ => s.setPhase p .inspecting
  | .writing i token offset => s.write p i token offset n
  | .syncing i token => s.setPhase p (.closing i token)
  | .closing _ token => s.setPhase p (.returned (.ok token))
  -- `os.Remove` after a failed write, sync or close.
  | .removing err => { s.error p err with entry := none }
  | .inspecting =>
    match s.entry with
    | some entry => s.lstat p entry
    | none => s
  -- The second look at the file follows the path again, and may meet another file.
  | .opening number =>
    match s.entry.bind Entry.target with
    | some i => s.setPhase p (.opened number i)
    | none => s
  | .opened number i => s.fstat p number i
  | .reading i got => s.read p i got n
  | _ => s

/-- A system call may succeed so. -/
def Callable (p : κ) (n : ℕ) : Prop :=
  match s.phase p with
  | .creating _ | .syncing .. | .closing .. | .removing _ | .opened .. => True
  | .writing _ token offset => 0 < n ∧ offset + n ≤ token.length
  | .inspecting => s.entry.isSome
  | .opening _ => (s.entry.bind Entry.target).isSome
  | .reading i got => n ≤ s.unread i got ∧ (n = 0 → s.unread i got = 0)
  | _ => False

instance (p : κ) (n : ℕ) : Decidable (s.Callable p n) := by
  unfold Callable
  split <;> infer_instance

/-- A system call fails. A token that is not written, synced and closed is removed. -/
def fail (p : κ) (err : String) : State κ :=
  match s.phase p with
  | .creating _ => s.error p ("create bridge transport token: " ++ err)
  | .writing .. => s.setPhase p (.removing ("write bridge transport token: " ++ err))
  | .syncing .. => s.setPhase p (.removing ("sync bridge transport token: " ++ err))
  | .closing .. => s.setPhase p (.removing ("close bridge transport token: " ++ err))
  | .removing e => s.error p e
  | .inspecting => s.error p ("inspect bridge transport token: " ++ err)
  | .opening _ => s.error p ("open bridge transport token: " ++ err)
  | .opened .. => s.error p ("inspect opened bridge transport token: " ++ err)
  | .reading .. => s.error p ("read bridge transport token: " ++ err)
  | _ => s

/-- A process is in a system call. -/
def Busy (p : κ) : Prop :=
  match s.phase p with
  | .idle | .returned _ | .killed => False
  | _ => True

instance (p : κ) : Decidable (s.Busy p) := by
  unfold Busy
  split <;> infer_instance

end State

/-- `LoadOrCreateToken` up to its first system call on the file. -/
def loadOrCreateToken (path : List Char) (s : State κ) (p : κ) (random : Except String Token) :
    State κ :=
  if ¬ isAbs path then s.error p "bridge token path must be absolute"
  else
    match random with
    | .error err => s.error p ("generate bridge transport token: " ++ err)
    | .ok token => s.setPhase p (.creating token)

/-- `LoadToken` up to its first system call. -/
def loadToken (path : List Char) (s : State κ) (p : κ) : State κ :=
  if ¬ isAbs path then s.error p "bridge token path must be absolute"
  else s.setPhase p .inspecting

/-- A process calls one of the two functions once, and makes its system calls one by one. -/
def Event.enabled (s : State κ) : Event κ → Prop
  | .loadOrCreateToken p random =>
    s.phase p = .idle ∧ ∀ token ∈ random.toOption, token.length = tokenBytes
  | .loadToken p => s.phase p = .idle
  | .call p n => s.Callable p n
  | .fail p _ => s.Busy p
  | .kill p => s.Busy p
  | .other entry _ fresh => s.fresh ≤ fresh ∧ ∀ i ∈ entry.bind Entry.target, i < fresh

instance (s : State κ) (e : Event κ) : Decidable (e.enabled s) := by
  cases e <;> unfold Event.enabled <;> infer_instance

/-- What an event leaves. -/
def next (path : List Char) (s : State κ) : Event κ → State κ
  | .loadOrCreateToken p random => loadOrCreateToken path s p random
  | .loadToken p => loadToken path s p
  | .call p n => s.call p n
  | .fail p err => s.fail p err
  | .kill p => s.setPhase p .killed
  | .other entry nodes fresh => { s with entry := entry, nodes := nodes, fresh := fresh }

/-- The state in which no process has started. -/
def start (entry : Option Entry) (nodes : ℕ → Node) : State κ where
  entry := entry
  nodes := nodes
  fresh := ((entry.bind Entry.target).map (· + 1)).getD 0

/-- The processes on a path, which names `entry` when they start. -/
def machine (κ : Type*) [DecidableEq κ] (path : List Char) (entry : Option Entry)
    (nodes : ℕ → Node) : Machine (State κ) (Event κ) where
  init := start entry nodes
  enabled s e := e.enabled s
  next := next path

instance (path : List Char) (entry : Option Entry) (nodes : ℕ → Node) (s : State κ)
    (e : Event κ) : Decidable ((machine κ path entry nodes).enabled s e) :=
  inferInstanceAs (Decidable (e.enabled s))

/-! ### Runs without interference -/

/-- No other program interferes, and no token is removed that is in the file already. -/
def Undisturbed (s : State κ) : Event κ → Prop
  | .other .. => False
  | .fail p _ =>
    match s.phase p with
    | .syncing .. | .closing .. => False
    | _ => True
  | _ => True

instance (s : State κ) (e : Event κ) : Decidable (Undisturbed s e) := by
  unfold Undisturbed
  split
  · infer_instance
  · split <;> infer_instance
  · infer_instance

/-- The process has created the file, and has neither closed nor removed it. -/
def Phase.Owns : Phase → Prop
  | .writing .. | .syncing .. | .closing .. | .removing _ => True
  | _ => False

namespace State

variable (s : State κ)

omit [DecidableEq κ]

/-- The path leads to the file `i`. -/
def LeadsTo (i : ℕ) : Prop := s.entry.bind Entry.target = some i

/-- The path leads to a file with this token. -/
def Stored (i : ℕ) (token : Token) : Prop :=
  s.LeadsTo i ∧ (s.nodes i).content = token ∧ token.length = tokenBytes

/-- What has been read from an open file is the beginning of its content, and if the path does not
lead to the file any more, the file has no token. -/
def Open (i : ℕ) (got : List UInt8) : Prop :=
  i < s.fresh ∧ got <+: (s.nodes i).content ∧
    (s.LeadsTo i ∨ (s.nodes i).content.length < tokenBytes)

/-- What a process may rely on. -/
def Held : Phase → Prop
  | .creating token => token.length = tokenBytes
  | .writing i token n =>
    s.LeadsTo i ∧ (s.nodes i).content = token.take n ∧ n < tokenBytes ∧
      token.length = tokenBytes
  | .syncing i token => s.Stored i token
  | .closing i token => s.Stored i token
  | .removing _ => ∃ i, s.LeadsTo i ∧ (s.nodes i).content.length < tokenBytes
  | .opened _ i => s.Open i []
  | .reading i got => s.Open i got
  | .returned (.ok token) => ∃ i, s.Stored i token
  | _ => True

end State

/-- The file of the path is written by one process at most. -/
structure Inv (s : State κ) : Prop where
  fresh : ∀ i, s.LeadsTo i → i < s.fresh
  one : ∀ p q, (s.phase p).Owns → (s.phase q).Owns → p = q
  held : ∀ p, s.Held (s.phase p)

/-- Between `s` and `s'` files only grow, a file with a token stays as and where it is, and no file
changes that the path leads to no more. -/
structure Grown (s s' : State κ) : Prop where
  fresh : s.fresh ≤ s'.fresh
  content : ∀ i < s.fresh, (s.nodes i).content <+: (s'.nodes i).content
  stored : ∀ i token, s.Stored i token → s'.Stored i token
  gone : ∀ i < s.fresh, s.LeadsTo i ∨ (s.nodes i).content.length < tokenBytes →
    s'.LeadsTo i ∨ (s'.nodes i).content.length < tokenBytes

section Steps

variable {s s' : State κ} {p : κ} {phase : Phase}

omit [DecidableEq κ] in
/-- The path leads to one file. -/
theorem State.LeadsTo.unique {i j : ℕ} (hi : s.LeadsTo i) (hj : s.LeadsTo j) : i = j :=
  Option.some.inj (hi.symm.trans hj)

omit [DecidableEq κ] in
/-- A path that leads to a file has an entry. -/
theorem State.LeadsTo.entry {i : ℕ} (h : s.LeadsTo i) : s.entry ≠ none := by
  intro h_none
  rw [State.LeadsTo, h_none] at h
  cases h

omit [DecidableEq κ] in
/-- An owner has the path lead to its file. -/
theorem Inv.leadsTo (h : Inv s) (hp : (s.phase p).Owns) : ∃ i, s.LeadsTo i := by
  have h_held := h.held p
  cases h_phase : s.phase p <;> simp only [h_phase, Phase.Owns] at hp
  all_goals simp only [h_phase, State.Held] at h_held
  case writing i token n => exact ⟨i, h_held.1⟩
  case syncing i token => exact ⟨i, h_held.1⟩
  case closing i token => exact ⟨i, h_held.1⟩
  case removing =>
    obtain ⟨i, hi, -⟩ := h_held
    exact ⟨i, hi⟩

omit [DecidableEq κ] in
/-- What a process relies on that does not own the file survives the steps of the others. -/
theorem Grown.held (h : Grown s s') (h_owns : ¬ phase.Owns) (h_held : s.Held phase) :
    s'.Held phase := by
  have h_open : ∀ i got, s.Open i got → s'.Open i got := by
    rintro i got ⟨hi, h_got, h_gone⟩
    exact ⟨hi.trans_le h.fresh, h_got.trans (h.content i hi), h.gone i hi h_gone⟩
  -- A process that owns no entry holds what it has read, and files only grow.
  cases phase with
  | writing => exact absurd trivial h_owns
  | syncing => exact absurd trivial h_owns
  | closing => exact absurd trivial h_owns
  | removing => exact absurd trivial h_owns
  | opened number i => exact h_open i [] h_held
  | reading i got => exact h_open i got h_held
  | returned result =>
    cases result with
    | error => trivial
    | ok token =>
      obtain ⟨i, hi⟩ := h_held
      exact ⟨i, h.stored i token hi⟩
  | creating token => exact h_held
  | _ => trivial

/-- Only the phase of a process changes, and it does not become an owner by it. -/
theorem Inv.setPhase (h : Inv s) (h_owns : phase.Owns → (s.phase p).Owns)
    (h_held : s.Held phase) : Inv (s.setPhase p phase) where
  fresh := h.fresh
  one q r hq hr := by
    -- Nobody comes to own the file by this step.
    have h_back : ∀ q, ((s.setPhase p phase).phase q).Owns → (s.phase q).Owns := by
      intro q hq
      simp only [State.setPhase, Function.update_apply] at hq
      split at hq
      case isTrue h_eq => exact h_eq ▸ h_owns hq
      case isFalse => exact hq
    exact h.one q r (h_back q hq) (h_back r hr)
  held q := by
    simp only [State.setPhase, Function.update_apply]
    split
    · exact h_held
    · exact h.held q

/-- A process changes the file or the path, and no other process owns the file. -/
theorem Inv.change (h : Inv s) (h_phase : s'.phase = Function.update s.phase p phase)
    (h_grown : Grown s s') (h_fresh : ∀ i, s'.LeadsTo i → i < s'.fresh)
    (h_alone : ∀ q, q ≠ p → ¬ (s.phase q).Owns) (h_held : s'.Held phase) : Inv s' where
  fresh := h_fresh
  one q r hq hr := by
    -- Nobody else owns the file, so the mover is the only one who may.
    have h_self : ∀ q, (s'.phase q).Owns → q = p := by
      intro q hq
      by_contra h_ne
      rw [h_phase, Function.update_of_ne h_ne] at hq
      exact h_alone q h_ne hq
    rw [h_self q hq, h_self r hr]
  held q := by
    rw [h_phase, Function.update_apply]
    split
    · exact h_held
    case isFalse h_ne => exact h_grown.held (h_alone q h_ne) (h.held q)

/-- A file is created only if there is none, and then its creator is alone. -/
theorem Inv.create (h : Inv s) (h_entry : s.entry = none) {token : Token} {n : ℕ}
    (h_token : token.length = tokenBytes) : Inv (s.create p token n) := by
  have h_leads : ∀ i, ¬ s.LeadsTo i := fun i hi => hi.entry h_entry
  -- the node is a new one, and the others are as they were
  have h_node : ∀ i < s.fresh, ((s.create p token n).nodes i) = s.nodes i := by
    intro i hi
    exact Function.update_of_ne hi.ne ..
  have h_new : ((s.create p token n).nodes s.fresh).content = [] := by
    simp [State.create, State.setPhase, State.setNode]
  have h_grown : Grown s (s.create p token n) := by
    refine ⟨Nat.le_succ _, ?_, ?_, ?_⟩
    · intro i hi
      rw [h_node i hi]
    · intro i token' hi
      exact absurd hi.1 (h_leads i)
    · intro i hi h_gone
      rw [h_node i hi]
      exact .inr (h_gone.resolve_left (h_leads i))
  -- the name leads to the new node, which nobody has read
  refine h.change (p := p) rfl h_grown ?_ ?_ ⟨rfl, ?_, by decide, h_token⟩
  · intro i hi
    obtain rfl : s.fresh = i := Option.some.inj hi
    exact Nat.lt_succ_self _
  · intro q _ hq
    obtain ⟨i, hi⟩ := h.leadsTo hq
    exact h_leads i hi
  · rw [h_new]
    rfl

omit [DecidableEq κ] in
/-- A file that the path leads to and that has no token yet only grows. -/
theorem Grown.write {i : ℕ} (h_entry : s'.entry = s.entry) (h_fresh : s'.fresh = s.fresh)
    (h_nodes : ∀ j, j ≠ i → s'.nodes j = s.nodes j)
    (h_content : (s.nodes i).content <+: (s'.nodes i).content) (hi : s.LeadsTo i)
    (h_torn : (s.nodes i).content.length < tokenBytes) : Grown s s' := by
  have h_leads : ∀ j, s'.LeadsTo j ↔ s.LeadsTo j := by
    intro j
    rw [State.LeadsTo, State.LeadsTo, h_entry]
  refine ⟨h_fresh.ge, ?_, ?_, ?_⟩
  · intro j _
    by_cases h : j = i
    · exact h ▸ h_content
    · rw [h_nodes j h]
  · rintro j token ⟨hj, rfl, h_length⟩
    -- the file that is written has fewer bytes than a token
    obtain rfl := hi.unique hj
    omega
  · intro j _ h_gone
    rw [h_leads]
    by_cases h : j = i
    · exact .inl (h ▸ hi)
    · rwa [h_nodes j h]

/-- A write adds to what has been written of the token. -/
theorem Inv.write (h : Inv s) {i : ℕ} {token : Token} {k n : ℕ}
    (hp : s.phase p = .writing i token k) (h_n : k + n ≤ token.length) :
    Inv (s.write p i token k n) := by
  have h_held := h.held p
  rw [hp] at h_held
  obtain ⟨hi, h_content, h_k, h_token⟩ := h_held
  have h_length : (s.nodes i).content.length = k := by
    rw [h_content, List.length_take]
    omega
  -- the content is the beginning of the token, longer by what was written
  have h_write : ((s.write p i token k n).nodes i).content = token.take (k + n) := by
    simp only [State.write, State.setPhase, State.setNode, Function.update_self, writeAt]
    have h_chunk : ((token.drop k).take n).length = n := by
      rw [List.length_take, List.length_drop]
      omega
    have h_rest : (s.nodes i).content.drop (k + n) = [] := List.drop_eq_nil_of_le (by omega)
    rw [h_chunk, h_rest, List.append_nil, List.takeD_eq_take _ h_length.ge,
      List.take_of_length_le h_length.le, h_content, List.take_add]
  have h_grown : Grown s (s.write p i token k n) := by
    refine Grown.write rfl rfl (fun j hj => Function.update_of_ne hj ..) ?_ hi (by omega)
    rw [h_content, h_write]
    exact List.take_prefix_take_left (Nat.le_add_right k n)
  refine h.change (p := p) rfl h_grown (fun j hj => h.fresh j hj) ?_ ?_
  · intro q h_ne hq
    exact h_ne (h.one q p hq (by rw [hp]; trivial))
  · split
    case isTrue h_all => exact ⟨hi, by rw [h_write, h_all, List.take_length], h_token⟩
    case isFalse => exact ⟨hi, h_write, by omega, h_token⟩

/-- A file without a token is removed. -/
theorem Inv.remove (h : Inv s) {err : String} (hp : s.phase p = .removing err) :
    Inv { s.error p err with entry := none } := by
  have h_held := h.held p
  rw [hp] at h_held
  obtain ⟨i, hi, h_torn⟩ := h_held
  -- Taking the entry away keeps every inode as it is.
  have h_grown : Grown s { s.error p err with entry := none } := by
    refine ⟨le_rfl, fun _ _ => List.prefix_rfl, ?_, ?_⟩
    · rintro j token ⟨hj, rfl, h_length⟩
      obtain rfl := hi.unique hj
      omega
    · rintro j - (hj | hj)
      · obtain rfl := hi.unique hj
        exact .inr h_torn
      · exact .inr hj
  refine h.change (p := p) rfl h_grown (fun j hj => ?_) ?_ trivial
  · cases hj
  · intro q h_ne hq
    exact h_ne (h.one q p hq (by rw [hp]; trivial))

/-- A process that returns an error has no file to answer for. -/
theorem Inv.error (h : Inv s) (text : String) : Inv (s.error p text) :=
  h.setPhase (fun h => h.elim) trivial

/-- `Lstat` changes nothing but where the process stands. -/
theorem Inv.lstat (h : Inv s) (entry : Entry) : Inv (s.lstat p entry) := by
  unfold State.lstat
  split
  · exact h.error _
  · split
    · exact h.error _
    · split
      · exact h.error _
      · exact h.setPhase (fun h => h.elim) trivial

/-- What has been read is the beginning of the file. -/
theorem Inv.read (h : Inv s) {i n : ℕ} {got : List UInt8} (hp : s.phase p = .reading i got)
    (h_end : n = 0 → s.unread i got = 0) : Inv (s.read p i got n) := by
  have h_held := h.held p
  rw [hp] at h_held
  obtain ⟨hi, h_got, h_open⟩ := h_held
  unfold State.read
  split
  case isTrue h_zero =>
    split
    case isFalse => exact h.error _
    case isTrue h_length =>
      -- at the end of the file, all of it has been read
      have h_unread := h_end h_zero
      have h_le := h_got.length_le
      simp only [State.unread, tokenBytes] at h_unread h_length h_open
      have h_all := h_got.eq_of_length (by omega)
      refine h.setPhase (fun h => h.elim) ⟨i, ?_, h_all.symm, h_length⟩
      refine h_open.resolve_right ?_
      omega
  case isFalse =>
    refine h.setPhase (fun h => h.elim) ⟨hi, ?_, h_open⟩
    obtain ⟨rest, h_rest⟩ := h_got
    rw [← h_rest, readAt, List.drop_left]
    exact (List.prefix_append_right_inj got).mpr (List.take_prefix n rest)

/-- Every system call that succeeds keeps the invariant. -/
theorem Inv.call (h : Inv s) {n : ℕ} (h_call : s.Callable p n) : Inv (s.call p n) := by
  have h_held := h.held p
  unfold State.Callable at h_call
  cases hp : s.phase p <;> simp only [hp, State.Held] at h_held h_call <;>
    simp only [State.call, hp]
  case creating token =>
    cases h_entry : s.entry with
    | none => exact h.create h_entry h_held
    | some entry => exact h.setPhase (fun h => h.elim) trivial
  case writing i token k => exact h.write hp h_call.2
  case syncing i token => exact h.setPhase (fun _ => by rw [hp]; trivial) h_held
  case closing i token => exact h.setPhase (fun h => h.elim) ⟨i, h_held⟩
  case removing err => exact h.remove hp
  -- from here on the process only looks at the file
  case inspecting =>
    cases s.entry with
    | none => exact h
    | some entry => exact h.lstat entry
  case opening number =>
    cases h_entry : s.entry.bind Entry.target with
    | none => exact h
    | some i => exact h.setPhase (fun h => h.elim) ⟨h.fresh i h_entry, List.nil_prefix,
        .inl h_entry⟩
  case opened number i =>
    unfold State.fstat
    split
    · exact h.setPhase (fun h => h.elim) h_held
    · exact h.error _
  case reading i got => exact h.read hp h_call.2

/-- A system call that fails does, unless it removes a token that is there. -/
theorem Inv.fail (h : Inv s) (err : String) (h_undisturbed : Undisturbed s (.fail p err)) :
    Inv (s.fail p err) := by
  have h_held := h.held p
  unfold Undisturbed at h_undisturbed
  cases hp : s.phase p <;> simp only [hp, State.Held] at h_held h_undisturbed <;>
    simp only [State.fail, hp]
  case writing i token k =>
    obtain ⟨hi, h_content, h_k, h_token⟩ := h_held
    refine h.setPhase (fun _ => by rw [hp]; trivial) ⟨i, hi, ?_⟩
    rw [h_content, List.length_take]
    omega
  all_goals first | exact h | exact h.error _

end Steps

section Runs

variable {path : List Char} {entry : Option Entry} {nodes : ℕ → Node}

/-- A process begins with a new token, or with an error. -/
theorem Inv.loadOrCreateToken {s : State κ} {p : κ} (h : Inv s) {random : Except String Token}
    (h_random : ∀ token ∈ random.toOption, token.length = tokenBytes) :
    Inv (loadOrCreateToken path s p random) := by
  unfold BridgeAuth.loadOrCreateToken
  split
  · exact h.error _
  · cases random with
    | error err => exact h.error _
    | ok token => exact h.setPhase (fun h => h.elim) (h_random token rfl)

/-- A process begins to load the token. -/
theorem Inv.loadToken {s : State κ} {p : κ} (h : Inv s) : Inv (loadToken path s p) := by
  unfold BridgeAuth.loadToken
  split
  · exact h.error _
  · exact h.setPhase (fun h => h.elim) trivial

/-- Every undisturbed event keeps the invariant. -/
theorem inv_next {s : State κ} {e : Event κ} (h : Inv s) (he : e.enabled s)
    (h_undisturbed : Undisturbed s e) : Inv (next path s e) := by
  cases e with
  | loadOrCreateToken p random => exact h.loadOrCreateToken he.2
  | loadToken p => exact h.loadToken
  | call p n => exact h.call he
  | fail p err => exact h.fail err h_undisturbed
  | kill p => exact h.setPhase (fun h => h.elim) trivial
  | other => exact h_undisturbed.elim

omit [DecidableEq κ] in
/-- Nobody has begun. -/
theorem inv_start : Inv (start entry nodes : State κ) where
  fresh i hi := by
    simp only [State.LeadsTo, start] at hi ⊢
    rw [hi]
    exact Nat.lt_succ_self i
  one _ _ hp _ := hp.elim
  held _ := trivial

/-- The runs in which no other program interferes. -/
abbrev undisturbed (κ : Type*) [DecidableEq κ] (path : List Char) (entry : Option Entry)
    (nodes : ℕ → Node) : Machine (State κ) (Event κ) :=
  (machine κ path entry nodes).restrict Undisturbed

/-- The invariant holds in every undisturbed run. -/
theorem inv {s : State κ} (h : (undisturbed κ path entry nodes).Reachable s) : Inv s := by
  refine Machine.Reachable.induction (M := undisturbed κ path entry nodes) inv_start ?_ h
  intro s e _ h_inv he
  exact inv_next h_inv he.1 he.2

/-- A host that presents the token of a file is accepted by a daemon that has the file's token. -/
theorem tokenMatches_encodedToken (lib : Server.Trusted.Library) {token : Token}
    (h : lib.token = encodedToken token) : lib.tokenMatches (encodedToken token) = true := by
  simp [Server.Trusted.Library.tokenMatches, h]

/-- **One token.** Processes that get a token from the path get the same one, whether they have
created the file or loaded it, and wherever the others stood meanwhile. It has the length of a
token, and a daemon that has got it accepts every host that has. -/
theorem agreement {es : List (Event κ)}
    (h : (undisturbed κ path entry nodes).Runs (start entry nodes) es) {p q : κ}
    {token token' : Token}
    (hp : ((undisturbed κ path entry nodes).exec (start entry nodes) es).phase p =
      .returned (.ok token))
    (hq : ((undisturbed κ path entry nodes).exec (start entry nodes) es).phase q =
      .returned (.ok token')) :
    token = token' ∧ token.length = tokenBytes ∧
      ∀ lib : Server.Trusted.Library, lib.token = encodedToken token →
        lib.tokenMatches (encodedToken token') = true := by
  have h_inv := inv (Machine.Runs.reachable h)
  have h_token := h_inv.held p
  have h_token' := h_inv.held q
  rw [Machine.restrict_init] at h_token h_token'
  obtain ⟨i, hi, h_content, h_length⟩ := by simpa only [machine, hp] using h_token
  obtain ⟨j, hj, h_content', -⟩ := by simpa only [machine, hq] using h_token'
  -- Both tokens are the content of the one file the path leads to.
  obtain rfl := hi.unique hj
  obtain rfl := h_content.symm.trans h_content'
  exact ⟨rfl, h_length, fun lib h_lib => tokenMatches_encodedToken lib h_lib⟩

end Runs

/-! ### Two daemons and a host -/

/-- The bytes from 0 to 31. -/
def sampleToken : Token := (List.range tokenBytes).map UInt8.ofNat

/-- There are no files. -/
def noFiles (_ : ℕ) : Node := ⟨0, false, 0, []⟩

/-- A process that has been told that the file exists loads it while it is written: 20 bytes of it
are there when `Lstat` is called, and all when it reads the last ones. -/
def sampleRace : List (Event ℕ) :=
  [.loadOrCreateToken 0 (.ok sampleToken), .loadOrCreateToken 1 (.ok (sampleToken.map (· + 1))),
    .call 0 7, .call 0 20, .call 1 0, .call 1 0, .call 1 0, .call 1 0, .call 1 5, .call 0 12,
    .loadToken 2, .call 2 0, .call 2 0, .call 2 0, .call 2 32, .call 1 27, .call 1 0, .call 2 0,
    .call 0 0, .call 0 0]

/-- The process that has lost the race returns the token of the other one. -/
theorem agreement_race :
    ((undisturbed ℕ ['/', 't'] none noFiles).exec (start none noFiles) sampleRace).phase 1 =
        .returned (.ok sampleToken) ∧
      ∀ lib : Server.Trusted.Library, lib.token = encodedToken sampleToken →
        lib.tokenMatches (encodedToken sampleToken) = true := by
  have h_runs : (undisturbed ℕ ['/', 't'] none noFiles).Runs (start none noFiles) sampleRace := by
    decide +kernel
  have h_loaded : ((undisturbed ℕ ['/', 't'] none noFiles).exec (start none noFiles)
      sampleRace).phase 1 = .returned (.ok sampleToken) := by
    decide +kernel
  exact ⟨h_loaded, (agreement h_runs (p := 0) (by decide +kernel) h_loaded).2.2⟩

/-! ### What a killed process leaves -/

/-- The path leads to a file without a token, and no process is there to complete or remove it. -/
structure Torn (i : ℕ) (s : State κ) : Prop where
  leads : s.LeadsTo i
  torn : (s.nodes i).content.length < tokenBytes
  free : ∀ p, ¬ (s.phase p).Owns

section Torn

variable {i : ℕ} {s : State κ} {p : κ} {path : List Char} {entry : Option Entry}
  {nodes : ℕ → Node}

/-- A process that is not a creator changes nothing of the file. -/
theorem Torn.setPhase (h : Torn i s) {phase : Phase} (h_owns : ¬ phase.Owns) :
    Torn i (s.setPhase p phase) where
  leads := h.leads
  torn := h.torn
  free q := by
    simp only [State.setPhase, Function.update_apply]
    split
    · exact h_owns
    · exact h.free q

/-- Nor does one that returns an error. -/
theorem Torn.error (h : Torn i s) (text : String) : Torn i (s.error p text) :=
  h.setPhase fun h => h

/-- No system call completes the file. -/
theorem Torn.call (h : Torn i s) (n : ℕ) : Torn i (s.call p n) := by
  have h_free := h.free p
  cases hp : s.phase p <;> simp only [hp, Phase.Owns, not_true_eq_false] at h_free <;>
    simp only [State.call, hp]
  case creating token =>
    -- `O_EXCL` finds the file
    cases h_entry : s.entry with
    | none => exact absurd h_entry h.leads.entry
    | some entry => exact h.setPhase fun h => h
  -- the file is too short to be opened with success, so `lstat` ends the load or goes on
  case inspecting =>
    cases s.entry with
    | none => exact h
    | some entry =>
      change Torn i (s.lstat p entry)
      unfold State.lstat
      repeat' split
      all_goals first | exact h.error _ | exact h.setPhase fun h => h
  case opening number =>
    cases s.entry.bind Entry.target with
    | none => exact h
    | some i => exact h.setPhase fun h => h
  -- `fstat` and `read` change nothing on the disk
  case opened number i =>
    unfold State.fstat
    split
    · exact h.setPhase fun h => h
    · exact h.error _
  case reading i got =>
    unfold State.read
    repeat' split
    all_goals first | exact h.error _ | exact h.setPhase fun h => h
  all_goals exact h

/-- No failure removes the file. -/
theorem Torn.fail (h : Torn i s) (err : String) : Torn i (s.fail p err) := by
  have h_free := h.free p
  cases hp : s.phase p <;> simp only [hp, Phase.Owns, not_true_eq_false] at h_free <;>
    simp only [State.fail, hp]
  all_goals first | exact h | exact h.error _

/-- Every undisturbed event leaves the file as it is. -/
theorem Torn.next (h : Torn i s) {e : Event κ} (h_undisturbed : Undisturbed s e) :
    Torn i (next path s e) := by
  cases e with
  | loadOrCreateToken p random =>
    change Torn i (loadOrCreateToken path s p random)
    unfold loadOrCreateToken
    split
    · exact h.error _
    · cases random with
      | error err => exact h.error _
      | ok token => exact h.setPhase fun h => h
  | loadToken p =>
    change Torn i (loadToken path s p)
    unfold loadToken
    split
    · exact h.error _
    · exact h.setPhase fun h => h
  -- the other programs are excluded; whatever a process of this one does keeps the file short
  | call p n => exact h.call n
  | fail p err => exact h.fail err
  | kill p => exact h.setPhase fun h => h
  | other => exact h_undisturbed.elim

/-- **A killed writer.** A daemon that is killed before it has written all of its token leaves a
file that no process replaces: from then on, none gets a token from the path, and none ever has. -/
theorem torn_of_killed {es fs : List (Event κ)} {q : κ}
    (h : (undisturbed κ path entry nodes).Runs (start entry nodes) (es ++ .kill p :: fs))
    {token : Token} {n : ℕ}
    (hp : ((undisturbed κ path entry nodes).exec (start entry nodes) es).phase p =
      .writing i token n) (token' : Token) :
    ((undisturbed κ path entry nodes).exec (start entry nodes) (es ++ .kill p :: fs)).phase q ≠
      .returned (.ok token') := by
  obtain ⟨h_es, h_kill, h_fs⟩ := (Machine.runs_append ..).mp h
  rw [Machine.exec_append, Machine.exec_cons]
  generalize h_state : (undisturbed κ path entry nodes).exec (start entry nodes) es = s at *
  have h_reachable : (undisturbed κ path entry nodes).Reachable s := ⟨es, h_es, h_state⟩
  have h_inv := inv h_reachable
  -- the killed process was the only one that could have completed or removed the file
  have h_torn : Torn i (s.setPhase p .killed) := by
    have h_held := h_inv.held p
    rw [hp] at h_held
    obtain ⟨hi, h_content, h_n, h_token⟩ := h_held
    refine ⟨hi, ?_, ?_⟩
    · change (s.nodes i).content.length < tokenBytes
      rw [h_content, List.length_take]
      omega
    · intro r hr
      simp only [State.setPhase, Function.update_apply] at hr
      split at hr
      · exact hr
      case isFalse h_ne => exact h_ne (h_inv.one r p hr (by rw [hp]; trivial))
  have h_end : Torn i ((undisturbed κ path entry nodes).exec
      ((undisturbed κ path entry nodes).next s (.kill p)) fs) :=
    Machine.Runs.stable (M := undisturbed κ path entry nodes) (P := Torn i) (Q := fun _ => True)
      (fun s e _ _ h_torn he => h_torn.next he.2) (h_reachable.next h_kill) h_torn
      (fun _ _ => trivial) h_fs
  intro hq
  have h_held := (inv ((h_reachable.next h_kill).exec h_fs)).held q
  rw [hq] at h_held
  obtain ⟨j, hj, h_content, h_length⟩ := h_held
  obtain rfl := h_end.leads.unique hj
  have h_short := h_end.torn
  rw [h_content, h_length] at h_short
  exact absurd h_short (lt_irrefl _)

end Torn

/-- A daemon is killed when 20 bytes are written; another that starts later finds the file. -/
def sampleTorn : List (Event ℕ) :=
  [.loadOrCreateToken 1 (.ok sampleToken), .call 1 0, .call 1 0, .call 1 0, .call 1 0, .call 1 20,
    .call 1 0]

/-- The second daemon does not get a token. -/
theorem torn_of_killed_writing :
    ((undisturbed ℕ ['/', 't'] none noFiles).exec (start none noFiles)
        ([.loadOrCreateToken 0 (.ok sampleToken), .call 0 7, .call 0 20] ++
          .kill 0 :: sampleTorn)).phase 1 ≠ .returned (.ok sampleToken) :=
  torn_of_killed (i := 0) (n := 20) (by decide +kernel)
    (show _ = Phase.writing 0 sampleToken 20 by decide +kernel) sampleToken

end BrowserControl.BridgeAuth
