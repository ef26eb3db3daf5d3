import BrowserControl.Core.CommandEffects
import BrowserControl.Encoding.Bytes
import BrowserControl.Encoding.JsonReader
import BrowserControl.Transition.Machine

/-!
# Artifacts and their files

An artifact is an entry of the table of the manager and a file under the root of the artifacts.
The two are not changed together: `StoreArtifact` writes the file first, without the lock, and
enters the artifact afterwards (`Event.write`, `Event.commit`); `DeleteArtifact` takes the entry
first and removes the file afterwards (`Event.delete`, `Event.unlink`); the janitor removes files
while it holds the lock. A new daemon begins with an empty table and leaves the files of the last
one where they are (`Event.restart`).

The file system may fail: a write that fails may leave a part of the file, and a file that cannot
be removed stays. None of the methods looks after such a file, so it stays for good
(`not_accounted_failedWrite`). While nothing of this happens, and no daemon starts over files of
another, each file belongs to an artifact or to a call in progress (`accounted_of_tidy`).
-/

namespace BrowserControl.Core.Artifacts

open Encoding Protocol Transition

/-! ### Ids and paths -/

/-- A new id: sixteen random bytes. -/
def newID (kind : String) (random : Vector UInt8 16) : String :=
  kind ++ String.ofList (hex random.toList)

/-- `filepath.Base`: the last element of a path. -/
def base (path : String) : String :=
  if path = "" then "."
  else
    -- Slashes at the end do not count.
    let reversed := path.toList.reverse.dropWhile (· = '/')
    if reversed = [] then "/" else String.ofList (reversed.takeWhile (· ≠ '/')).reverse

/-- The name of the file of an artifact, without the id. -/
def cleanName (id fileName : String) : String :=
  if base fileName = "." ∨ base fileName = "/" ∨ base fileName = "" then id ++ ".bin"
  else base fileName

/-- The path of a file under the root. -/
def join (artifactRoot id name : String) : String := artifactRoot ++ "/" ++ (id ++ "-" ++ name)

/-- The ids of artifacts have no dash in them. -/
theorem dash_not_mem_newID (random : Vector UInt8 16) : '-' ∉ (newID "art_" random).toList := by
  have h_digits : '-' ∉ hexDigits := by decide
  have h_kind : '-' ∉ "art_".toList := by decide
  intro h_mem
  rw [newID, String.toList_append, List.mem_append] at h_mem
  rcases h_mem with h_mem | h_mem
  · exact h_kind h_mem
  · rw [String.toList_ofList] at h_mem
    exact h_digits (mem_hexDigits h_mem)

/-- What stands before the first dash. -/
theorem takeWhile_dash {id : String} (h_id : '-' ∉ id.toList) (name : String) :
    (id ++ "-" ++ name).toList.takeWhile (· ≠ '-') = id.toList := by
  have h_all : ∀ c ∈ id.toList, decide (c ≠ '-') = true := by
    intro c h_c
    refine decide_eq_true ?_
    rintro rfl
    exact h_id h_c
  calc
    (id ++ "-" ++ name).toList.takeWhile (· ≠ '-')
    _ = (id.toList ++ '-' :: name.toList).takeWhile (· ≠ '-') := by simp
    _ = id.toList ++ ('-' :: name.toList).takeWhile (· ≠ '-') :=
      List.takeWhile_append_of_pos h_all
    _ = id.toList := by simp

/-- A path tells the id. -/
theorem join_injective {artifactRoot id id' name name' : String} (h_id : '-' ∉ id.toList)
    (h_id' : '-' ∉ id'.toList) (h : join artifactRoot id name = join artifactRoot id' name') :
    id = id' := by
  have h_rest : id ++ "-" ++ name = id' ++ "-" ++ name' := by
    have h_list := congrArg String.toList h
    rw [join, join, String.toList_append (s := artifactRoot ++ "/"),
      String.toList_append (s := artifactRoot ++ "/")] at h_list
    exact String.toList_inj.mp (List.append_cancel_left h_list)
  rw [← String.toList_inj, ← takeWhile_dash h_id name, h_rest, takeWhile_dash h_id' name']

/-! ### State -/

/-- The arguments of `StoreArtifact`. -/
structure Request where
  sessionID : String
  tabID : String
  kind : String
  mimeType : String
  fileName : String
  data : List UInt8
  ttl : Duration

/-- Where a call of `StoreArtifact` or `DeleteArtifact` stands. -/
inductive Phase where
  | outside
  /-- The session of the artifact was open. -/
  | checked (request : Request)
  /-- The file is written; the artifact is not entered yet. -/
  | written (artifact : Artifact)
  /-- The session was closed meanwhile; the file is to be removed. -/
  | discarding (artifact : Artifact) (rpcErr : RPCError)
  | stored (artifact : Artifact)
  /-- `StoreArtifact` has returned an error; `made` is the id and the path it had made up. -/
  | refused (made : Option (String × String)) (rpcErr : RPCError)
  /-- The entry is taken from the table; the file is to be removed. -/
  | deleting (artifact : Artifact)
  | deleted (result : Option RPCError)
  /-- The daemon has ended before the call did. -/
  | lost

/-- The artifact whose file the call is about to enter or to remove. -/
def Phase.artifact : Phase → Option Artifact
  | .written artifact => some artifact
  | .discarding artifact _ => some artifact
  | .deleting artifact => some artifact
  | _ => none

/-- The call has begun and has not returned. -/
def Phase.isActive : Phase → Bool
  | .checked _ => true
  | .written _ => true
  | .discarding .. => true
  | .deleting _ => true
  | _ => false

/-- The manager, the files it has created and the calls. -/
structure State (κ ι : Type*) where
  manager : Manager κ
  /-- The files under the root. -/
  files : String → Bool := fun _ => false
  calls : ι → Phase := fun _ => .outside
  /-- The ids that have been made up. -/
  issued : List String := []

variable {κ ι : Type*} [DecidableEq κ] [DecidableEq ι]

/-! ### The methods -/

/-- What the daemon is set up with: the root of the artifacts, and the digest of a file as
text. -/
structure Config where
  artifactRoot : String
  sha256 : List UInt8 → String
  leaseTTL : Duration

/-- 64 MiB -/
def maxArtifactSize : ℕ := 64 * 1024 * 1024

/-- The artifact of a file that is written. -/
def Config.artifact (cfg : Config) (request : Request) (id : String) (now : Time) : Artifact where
  artifactID := id
  sessionID := request.sessionID
  tabID := request.tabID
  kind := request.kind
  mimeType := request.mimeType
  size := request.data.length
  sha256 := cfg.sha256 request.data
  fileName := cleanName id request.fileName
  uri := "browser-artifact://" ++ id
  createdAt := now
  -- A lifetime that is not positive means a day.
  expiresAt := now + if request.ttl ≤ 0 then 24 * hour else request.ttl
  path := join cfg.artifactRoot id (cleanName id request.fileName)

/-- The error for an artifact above the limit. -/
def tooLarge (size : ℕ) : RPCError :=
  newError codeUnsupported "UNSUPPORTED" "artifact exceeds the local size limit" false
    (.ofFields [("size", .num (Reader.ofNat size)), ("limit", .num (Reader.ofNat maxArtifactSize))])

/-- What `os.WriteFile` does. -/
inductive WriteOutcome where
  | written
  /-- It fails, and may have created the file before. -/
  | failed (created : Bool)
  deriving DecidableEq

namespace State

/-- One call moves. -/
def setCall (s : State κ ι) (c : ι) (phase : Phase) : State κ ι :=
  { s with calls := Function.update s.calls c phase }

/-- The first critical section of `StoreArtifact`. -/
def begin (s : State κ ι) (c : ι) (request : Request) : State κ ι :=
  if request.sessionID = "" then s.setCall c (.checked request)
  else
    match s.manager.openSessionLocked request.sessionID with
    | .error rpcErr => s.setCall c (.refused none rpcErr)
    | .ok _ => s.setCall c (.checked request)

/-- `StoreArtifact` between its critical sections. -/
def write (s : State κ ι) (cfg : Config) (c : ι) (request : Request) (random : Vector UInt8 16)
    (outcome : WriteOutcome) (now : Time) : State κ ι :=
  if maxArtifactSize < request.data.length then
    s.setCall c (.refused none (tooLarge request.data.length))
  else
    let artifact := cfg.artifact request (newID "art_" random) now
    let issued := { s with issued := artifact.artifactID :: s.issued }
    match outcome with
    | .written =>
      { issued with files := Function.update s.files artifact.path true }
        |>.setCall c (.written artifact)
    -- A write that fails may have made the file, so the path is kept for the removal.
    | .failed created =>
      { issued with
          files := Function.update s.files artifact.path (s.files artifact.path || created) }
        |>.setCall c (.refused (some (artifact.artifactID, artifact.path)) internal)

/-- The second critical section of `StoreArtifact`. -/
def commit (s : State κ ι) (c : ι) (artifact : Artifact) : State κ ι :=
  let locked := s.manager.storeArtifact artifact
  match locked.result with
  | .ok artifact => { s with manager := locked.manager } |>.setCall c (.stored artifact)
  | .error rpcErr => s.setCall c (.discarding artifact rpcErr)

/-- `os.Remove`, which may fail and leave the file. -/
def remove (s : State κ ι) (path : String) (fails : Bool) : State κ ι :=
  { s with files := Function.update s.files path (s.files path && fails) }

/-- The critical section of `DeleteArtifact`. -/
def delete (s : State κ ι) (c : ι) (id : String) : State κ ι :=
  let locked := s.manager.deleteArtifact id
  match locked.result with
  | .ok artifact => { s with manager := locked.manager } |>.setCall c (.deleting artifact)
  | .error rpcErr => s.setCall c (.deleted (some rpcErr))

/-- `DeleteArtifact` removes the file; that there is none is no error. -/
def unlink (s : State κ ι) (c : ι) (artifact : Artifact) (fails : Bool) : State κ ι :=
  s.remove artifact.path fails
    |>.setCall c (.deleted (if s.files artifact.path && fails then some internal else none))

/-- One tick of the janitor; `removed` are the ids of the artifacts whose files it can remove. -/
def janitor (s : State κ ι) (now : Time) (removed : List String) : State κ ι :=
  { s with
    manager := (s.manager.janitor now).manager
    files := fun path => s.files path && !(removed.any fun id =>
      (s.manager.artifacts id).any fun a => a.expiresAt < now && a.path = path) }

/-- The daemon ends and another one starts with the same root. -/
def restart (s : State κ ι) (cfg : Config) : State κ ι :=
  { s with
    manager := .new cfg.leaseTTL
    calls := fun c => if (s.calls c).isActive then .lost else s.calls c }

end State

/-! ### The machine -/

/-- A command that `Event` has no case of its own for: one that leaves the artifacts alone. -/
def plain : Command → Bool
  | .storeArtifact _ => false
  | .deleteArtifact _ => false
  | .janitor => false
  | _ => true

/-- What can happen. -/
inductive Event (ι : Type*) where
  | command (k : Command) (now : Time)
  | begin (c : ι) (request : Request)
  | write (c : ι) (random : Vector UInt8 16) (outcome : WriteOutcome) (now : Time)
  | commit (c : ι)
  | discard (c : ι) (fails : Bool)
  | delete (c : ι) (id : String)
  | unlink (c : ι) (fails : Bool)
  | janitor (now : Time) (removed : List String)
  | restart

/-- When an event can happen. -/
def enabled (s : State κ ι) : Event ι → Prop
  | .command k _ => k.Fresh s.manager ∧ plain k = true
  | .begin c _ => (s.calls c matches .outside)
  | .write c random _ _ => (s.calls c matches .checked _) ∧ newID "art_" random ∉ s.issued
  | .commit c => (s.calls c matches .written _)
  | .discard c _ => (s.calls c matches .discarding ..)
  | .delete c _ => (s.calls c matches .outside)
  | .unlink c _ => (s.calls c matches .deleting _)
  | .janitor _ _ => True
  | .restart => True

instance (s : State κ ι) (e : Event ι) : Decidable (enabled s e) := by
  cases e <;> unfold enabled <;> infer_instance

/-- What an event does. -/
def next (cfg : Config) (s : State κ ι) : Event ι → State κ ι
  | .command k now => { s with manager := (k.run s.manager now).manager }
  | .begin c request => s.begin c request
  | .write c random outcome now =>
    match s.calls c with
    | .checked request => s.write cfg c request random outcome now
    | _ => s
  | .commit c =>
    match s.calls c with
    | .written artifact => s.commit c artifact
    | _ => s
  -- The refused artifact's file is removed, as far as the removal goes through.
  | .discard c fails =>
    match s.calls c with
    | .discarding artifact rpcErr =>
      s.remove artifact.path fails
        |>.setCall c (.refused (some (artifact.artifactID, artifact.path)) rpcErr)
    | _ => s
  | .delete c id => s.delete c id
  | .unlink c fails =>
    match s.calls c with
    | .deleting artifact => s.unlink c artifact fails
    | _ => s
  | .janitor now removed => s.janitor now removed
  | .restart => s.restart cfg

/-- Daemons that follow one another on the same root. -/
def machine (κ ι : Type*) [DecidableEq κ] [DecidableEq ι] (cfg : Config) :
    Machine (State κ ι) (Event ι) where
  init := { manager := .new cfg.leaseTTL }
  enabled := enabled
  next := next cfg

instance (cfg : Config) (s : State κ ι) (e : Event ι) :
    Decidable ((machine κ ι cfg).enabled s e) := inferInstanceAs (Decidable (enabled s e))

/-- **Accounting.** Between calls each file belongs to an artifact of the table, and a call of
`StoreArtifact` that has returned an error has left neither a file nor an artifact. -/
structure Accounted (s : State κ ι) : Prop where
  files : (∀ c, (s.calls c).isActive = false) → ∀ path, s.files path = true →
    ∃ id, ∃ a ∈ s.manager.artifacts id, a.path = path
  refused : ∀ c id path rpcErr, s.calls c = .refused (some (id, path)) rpcErr →
    s.files path = false ∧ s.manager.artifacts id = none

/-- The file system is in order: a write that fails leaves no file, a file that is to be removed
is removed, and a daemon starts without files of another one. -/
def Tidy (s : State κ ι) : Event ι → Prop
  | .write _ _ outcome _ => outcome ≠ .failed true
  | .discard _ fails => fails = false
  | .unlink _ fails => fails = false
  | .janitor now removed =>
    ∀ id, ∀ a ∈ s.manager.artifacts id, a.expiresAt < now → s.files a.path = true → id ∈ removed
  | .restart => ∀ path, s.files path = false
  | _ => True

/-! ### The invariant -/

/-- Where an artifact is. -/
inductive Place (ι : Type*) where
  | table
  /-- A call is about to enter it, or to remove its file. -/
  | call (c : ι)

/-- The artifact is at the place. -/
def At (s : State κ ι) (a : Artifact) : Place ι → Prop
  | .table => s.manager.artifacts a.artifactID = some a
  | .call c => (s.calls c).artifact = some a

/-- The path has been made up for the id. -/
structure Made (cfg : Config) (issued : List String) (id path : String) : Prop where
  issued : id ∈ issued
  dash : '-' ∉ id.toList
  path : ∃ name, path = join cfg.artifactRoot id name

/-- Each artifact is at one place and has a path of its own; each file belongs to an artifact. -/
structure Inv (cfg : Config) (s : State κ ι) : Prop where
  made : ∀ p a, At s a p → Made cfg s.issued a.artifactID a.path
  table : ∀ id a, s.manager.artifacts id = some a → a.artifactID = id
  place : ∀ p q a b, At s a p → At s b q → a.artifactID = b.artifactID → p = q
  refused : ∀ c id path rpcErr, s.calls c = .refused (some (id, path)) rpcErr →
    Made cfg s.issued id path ∧ ∀ p a, At s a p → a.artifactID ≠ id
  files : ∀ path, s.files path = true → ∃ p a, At s a p ∧ a.path = path

variable {cfg : Config} {s s' : State κ ι} {e : Event ι}

/-- Paths tell ids. -/
theorem Made.id_eq {issued : List String} {id id' path : String} (h : Made cfg issued id path)
    (h' : Made cfg issued id' path) : id = id' := by
  obtain ⟨name, h_name⟩ := h.path
  obtain ⟨name', h_name'⟩ := h'.path
  exact join_injective h.dash h'.dash (h_name.symm.trans h_name')

/-- A path that was made stays one when more ids are issued. -/
theorem Made.mono {issued issued' : List String} {id path : String} (h : Made cfg issued id path)
    (h_issued : issued ⊆ issued') : Made cfg issued' id path :=
  ⟨h_issued h.issued, h.dash, h.path⟩

/-- A call that has an artifact in its hands is under way. -/
theorem Phase.isActive_of_artifact {phase : Phase} {a : Artifact} (h : phase.artifact = some a) :
    phase.isActive = true := by
  cases phase <;> first | rfl | contradiction

omit [DecidableEq κ] [DecidableEq ι] in
/-- Two artifacts of one id are the same. -/
theorem Inv.eq_of_id (hI : Inv cfg s) {p q : Place ι} {a b : Artifact} (h_a : At s a p)
    (h_b : At s b q) (h_id : a.artifactID = b.artifactID) : a = b := by
  have h_place := hI.place p q a b h_a h_b h_id
  subst h_place
  cases p with
  | table =>
    have h_b : s.manager.artifacts b.artifactID = some b := h_b
    rw [← h_id, show s.manager.artifacts a.artifactID = some a from h_a] at h_b
    exact Option.some_inj.mp h_b
  | call c => exact Option.some_inj.mp (h_a.symm.trans h_b)

omit [DecidableEq κ] [DecidableEq ι] in
/-- What the invariant is for. -/
theorem Inv.accounted (hI : Inv cfg s) : Accounted s where
  files h_idle path h_path := by
    obtain ⟨p, a, h_at, h_same⟩ := hI.files path h_path
    -- no call is under way, so the artifact of the file is in the table
    cases p with
    | table => exact ⟨_, a, h_at, h_same⟩
    | call c =>
      have h_active := Phase.isActive_of_artifact h_at
      rw [h_idle c] at h_active
      contradiction
  refused c id path rpcErr h_c := by
    obtain ⟨h_made, h_nowhere⟩ := hI.refused c id path rpcErr h_c
    constructor
    · -- A file of that path would belong to an artifact with this id.
      by_contra h_path
      rw [Bool.not_eq_false] at h_path
      obtain ⟨p, a, h_at, h_same⟩ := hI.files path h_path
      have h_made' : Made cfg s.issued a.artifactID path := h_same ▸ hI.made p a h_at
      exact h_nowhere p a h_at (h_made'.id_eq h_made)
    · by_contra h_some
      obtain ⟨a, h_a⟩ := Option.ne_none_iff_exists'.mp h_some
      have h_id := hI.table id a h_a
      refine h_nowhere .table a ?_ h_id
      change s.manager.artifacts a.artifactID = some a
      rw [h_id]
      exact h_a

/-! ### Steps -/

omit [DecidableEq κ] [DecidableEq ι] in
/-- Artifacts go, and their files with them; the others stay where they are. -/
theorem Inv.removes (hI : Inv cfg s) (h_issued : s'.issued = s.issued)
    (h_table : ∀ id a, s'.manager.artifacts id = some a → s.manager.artifacts id = some a)
    (h_at : ∀ p a, At s' a p → At s a p)
    (h_refused : ∀ c made rpcErr, s'.calls c = .refused (some made) rpcErr →
      s.calls c = .refused (some made) rpcErr)
    (h_files : ∀ path, s'.files path = true →
      s.files path = true ∧ ∀ p a, At s a p → a.path = path → At s' a p) : Inv cfg s' where
  made p a h := by
    rw [h_issued]
    exact hI.made p a (h_at p a h)
  table id a h := hI.table id a (h_table id a h)
  place p q a b h_a h_b := hI.place p q a b (h_at p a h_a) (h_at q b h_b)
  refused c id path rpcErr h := by
    rw [h_issued]
    obtain ⟨h_made, h_nowhere⟩ := hI.refused c id path rpcErr (h_refused c _ rpcErr h)
    exact ⟨h_made, fun p a h_a => h_nowhere p a (h_at p a h_a)⟩
  -- a file that is left belongs to who it belonged to
  files path h := by
    obtain ⟨h_path, h_keep⟩ := h_files path h
    obtain ⟨p, a, h_a, h_same⟩ := hI.files path h_path
    exact ⟨p, a, h_keep p a h_a h_same, h_same⟩

omit [DecidableEq κ] [DecidableEq ι] in
/-- An id that has not been made up names no artifact. -/
theorem Inv.fresh (hI : Inv cfg s) {id : String} (h_id : id ∉ s.issued) (p : Place ι)
    (a : Artifact) (h : At s a p) : a.artifactID ≠ id := by
  intro h_eq
  exact h_id (h_eq ▸ (hI.made p a h).issued)

omit [DecidableEq κ] in
/-- What the calls have, after a call has moved on. -/
theorem at_call {c d : ι} {phase : Phase} {a : Artifact}
    (h_calls : s'.calls = Function.update s.calls c phase) :
    At s' a (.call d) ↔ d = c ∧ phase.artifact = some a ∨ d ≠ c ∧ At s a (.call d) := by
  change (s'.calls d).artifact = some a ↔ _
  rw [h_calls]
  by_cases h : d = c
  · subst h
    rw [Function.update_self]
    simp
  · rw [Function.update_of_ne h]
    simp [h, At]

omit [DecidableEq κ] in
/-- What the calls have refused, after a call has moved on. -/
theorem refused_of_update {c d : ι} {phase : Phase} {made : String × String} {rpcErr : RPCError}
    (h_calls : s'.calls = Function.update s.calls c phase)
    (h : s'.calls d = .refused (some made) rpcErr) :
    phase = .refused (some made) rpcErr ∨ s.calls d = .refused (some made) rpcErr := by
  rw [h_calls] at h
  by_cases h_d : d = c
  · subst h_d
    rw [Function.update_self] at h
    exact .inl h
  · rw [Function.update_of_ne h_d] at h
    exact .inr h

omit [DecidableEq κ] in
/-- A call moves on with what it has. -/
theorem Inv.proceeds (hI : Inv cfg s) {c : ι} {phase : Phase}
    (h_artifact : phase.artifact = (s.calls c).artifact)
    (h_refused : ∀ made rpcErr, phase ≠ .refused (some made) rpcErr) :
    Inv cfg (s.setCall c phase) := by
  -- The artifact stays where it is: only the phase of the call changes.
  have h_at : ∀ p a, At (s.setCall c phase) a p ↔ At s a p := by
    intro p a
    cases p with
    | table => exact Iff.rfl
    | call d =>
      have h_calls : (s.setCall c phase).calls = Function.update s.calls c phase := rfl
      rw [at_call h_calls, h_artifact]
      by_cases h : d = c
      · subst h
        simp [At]
      · simp [h]
  refine hI.removes rfl (fun _ _ h => h) (fun p a => (h_at p a).mp) ?_ ?_
  · intro d made rpcErr h
    exact (refused_of_update rfl h).resolve_left (h_refused made rpcErr)
  · exact fun path h => ⟨h, fun p a h_a _ => (h_at p a).mpr h_a⟩

/-- What a call that moves on does to the artifact with an id: it is new or the call has it or it
is in the table, and afterwards the call has it or it is in the table, or it is gone. -/
structure Transfers (cfg : Config) (s s' : State κ ι) (c : ι) (id : String) (phase : Phase) :
    Prop where
  calls : s'.calls = Function.update s.calls c phase
  issued : s.issued ⊆ s'.issued
  table : ∀ id', id' ≠ id → s'.manager.artifacts id' = s.manager.artifacts id'
  /-- It is new, or at a place that the call may take it from. -/
  known : id ∉ s.issued ∨ ∃ p a, At s a p ∧ a.artifactID = id ∧ ∀ d, p = .call d → d = c
  before : ∀ a, (s.calls c).artifact = some a → a.artifactID = id
  after : ∀ a, phase.artifact = some a ∨ s'.manager.artifacts id = some a →
    a.artifactID = id ∧ Made cfg s'.issued id a.path
  /-- It is not at two places. -/
  once : phase.artifact = none ∨ s'.manager.artifacts id = none
  refused : ∀ made rpcErr, phase = .refused (some made) rpcErr →
    made.1 = id ∧ Made cfg s'.issued id made.2 ∧ s'.manager.artifacts id = none
  files : ∀ path, s'.files path = true →
    (∃ a, (phase.artifact = some a ∨ s'.manager.artifacts id = some a) ∧ a.path = path) ∨
      s.files path = true ∧ ∀ p a, At s a p → a.artifactID = id → a.path ≠ path

section Transfers

variable {c : ι} {id : String} {phase : Phase}

omit [DecidableEq κ] in
/-- The artifact is at most with this call. -/
theorem Transfers.eq_call (h : Transfers cfg s s' c id phase) (hI : Inv cfg s) {d : ι}
    {a : Artifact}
    (h_a : At s a (.call d)) (h_id : a.artifactID = id) : d = c := by
  rcases h.known with h_new | ⟨p, b, h_b, h_id', h_p⟩
  · exact absurd h_id (hI.fresh h_new _ a h_a)
  · exact h_p d (hI.place _ _ b a h_b h_a (h_id'.trans h_id.symm))

omit [DecidableEq κ] in
/-- Where the artifact with the id is afterwards. -/
theorem Transfers.at_self (h : Transfers cfg s s' c id phase) (hI : Inv cfg s) {p : Place ι}
    {a : Artifact} (h_a : At s' a p) (h_id : a.artifactID = id) :
    p = .call c ∧ phase.artifact = some a ∨ p = .table ∧ s'.manager.artifacts id = some a := by
  cases p with
  | table =>
    refine .inr ⟨rfl, ?_⟩
    rw [← h_id]
    exact h_a
  | call d =>
    rcases (at_call h.calls).mp h_a with ⟨rfl, h_phase⟩ | ⟨h_ne, h_a⟩
    · exact .inl ⟨rfl, h_phase⟩
    · exact absurd (h.eq_call hI h_a h_id) h_ne

omit [DecidableEq κ] in
/-- The other artifacts stay where they are. -/
theorem Transfers.at_other (h : Transfers cfg s s' c id phase) {p : Place ι} {a : Artifact}
    (h_id : a.artifactID ≠ id) : At s' a p ↔ At s a p := by
  cases p with
  | table =>
    change s'.manager.artifacts a.artifactID = some a ↔ s.manager.artifacts a.artifactID = some a
    rw [h.table a.artifactID h_id]
  -- The call that moves its artifact holds another id.
  | call d =>
    rw [at_call h.calls]
    constructor
    · rintro (⟨-, h_a⟩ | ⟨-, h_a⟩)
      · exact absurd (h.after a (.inl h_a)).1 h_id
      · exact h_a
    · intro h_a
      refine .inr ⟨?_, h_a⟩
      rintro rfl
      exact h_id (h.before a h_a)

omit [DecidableEq κ] in
/-- A file goes from one owner to another. -/
theorem Inv.transfers (hI : Inv cfg s) (c : ι) (id : String) (phase : Phase)
    (h : Transfers cfg s s' c id phase) : Inv cfg s' where
  -- at the id of the call the artifact is the one the transfer names; elsewhere nothing moves
  made p a h_a := by
    by_cases h_id : a.artifactID = id
    · rw [h_id]
      refine (h.after a ?_).2
      exact (h.at_self hI h_a h_id).imp And.right And.right
    · exact (hI.made p a ((h.at_other h_id).mp h_a)).mono h.issued
  table id' a h_a := by
    by_cases h_id : id' = id
    · subst h_id
      exact (h.after a (.inr h_a)).1
    · rw [h.table id' h_id] at h_a
      exact hI.table id' a h_a
  -- an artifact is at the call or in the table, and `once` says not at both
  place p q a b h_a h_b h_same := by
    by_cases h_id : a.artifactID = id
    · have h_id' : b.artifactID = id := h_same.symm.trans h_id
      rcases h.at_self hI h_a h_id with ⟨rfl, h_phase⟩ | ⟨rfl, h_entry⟩
      · rcases h.at_self hI h_b h_id' with ⟨rfl, -⟩ | ⟨-, h_entry⟩
        · rfl
        · rcases h.once with h_none | h_none
          · simp [h_none] at h_phase
          · simp [h_none] at h_entry
      · rcases h.at_self hI h_b h_id' with ⟨-, h_phase⟩ | ⟨rfl, -⟩
        · rcases h.once with h_none | h_none
          · simp [h_none] at h_phase
          · simp [h_none] at h_entry
        · rfl
    · have h_id' : b.artifactID ≠ id := fun h_eq => h_id (h_same.trans h_eq)
      exact hI.place p q a b ((h.at_other h_id).mp h_a) ((h.at_other h_id').mp h_b) h_same
  refused d id' path rpcErr h_d := by
    rcases refused_of_update h.calls h_d with h_phase | h_before
    · -- The artifact has just gone.
      obtain ⟨h_eq, h_made, h_none⟩ := h.refused _ rpcErr h_phase
      have h_eq : id' = id := h_eq
      subst h_eq
      refine ⟨h_made, fun p a h_a h_id => ?_⟩
      rcases h.at_self hI h_a h_id with ⟨-, h_some⟩ | ⟨-, h_some⟩
      · rw [h_phase] at h_some
        contradiction
      · simp [h_none] at h_some
    -- An older refusal is about another id.
    · obtain ⟨h_made, h_nowhere⟩ := hI.refused d id' path rpcErr h_before
      have h_ne : id' ≠ id := by
        rintro rfl
        rcases h.known with h_new | ⟨p, a, h_a, h_id, -⟩
        · exact h_new h_made.issued
        · exact h_nowhere p a h_a h_id
      refine ⟨h_made.mono h.issued, fun p a h_a h_id => ?_⟩
      have h_other : a.artifactID ≠ id := fun h_eq => h_ne (h_id.symm.trans h_eq)
      exact h_nowhere p a ((h.at_other h_other).mp h_a) h_id
  files path h_path := by
    rcases h.files path h_path with ⟨a, h_a, h_same⟩ | ⟨h_path, h_other⟩
    -- the file of the transferred artifact
    · rcases h_a with h_phase | h_entry
      · exact ⟨.call c, a, (at_call h.calls).mpr (.inl ⟨rfl, h_phase⟩), h_same⟩
      · refine ⟨.table, a, ?_, h_same⟩
        change s'.manager.artifacts a.artifactID = some a
        rw [(h.after a (.inr h_entry)).1]
        exact h_entry
    · obtain ⟨p, a, h_a, h_same⟩ := hI.files path h_path
      have h_id : a.artifactID ≠ id := fun h_id => h_other p a h_a h_id h_same
      exact ⟨p, a, (h.at_other h_id).mpr h_a, h_same⟩

end Transfers

/-- The methods that `plain` selects leave the artifacts alone. -/
theorem artifacts_command (m : Manager κ) (now : Time) {k : Command} (h : plain k = true) :
    (k.run m now).manager.artifacts = m.artifacts := by
  -- A lease that has expired is dropped on the way, which changes no artifact.
  have h_valid : ∀ sessionID tabID leaseID requireOpenSession,
      (m.validLeaseLocked now sessionID tabID leaseID requireOpenSession).manager.artifacts =
        m.artifacts := by
    intro sessionID tabID leaseID requireOpenSession
    have h_valid := m.validLease now sessionID tabID leaseID requireOpenSession
    generalize m.validLeaseLocked now sessionID tabID leaseID requireOpenSession = l at h_valid ⊢
    cases h_valid <;> rfl
  -- In every branch of every other command the field is copied.
  cases k with
  | openSession => rfl
  | grantCapabilities =>
    simp only [Command.run, Locked.effects, Manager.grantCapabilities]
    split
    · rfl
    · split
      · rfl
      · split <;> rfl
  | markOwnedTab =>
    simp only [Command.run, Locked.effects, Manager.markOwnedTab]
    split <;> rfl
  | validateLease => exact h_valid ..
  | renewLease =>
    simp only [Command.run, Locked.effects, Manager.renewLease]
    split
    · exact h_valid ..
    · rfl
  | bindLeaseBrowser =>
    simp only [Command.run, Locked.effects, Manager.bindLeaseBrowser]
    split
    · rfl
    · split
      · exact h_valid ..
      · split <;> rfl
  | claimTab =>
    simp only [Command.run, Locked.effects, Manager.claimTabForce]
    split
    · rfl
    · split
      · rfl
      · split
        · rfl
        · split
          · split
            · rfl
            · split <;> rfl
          · rfl
  | releaseTab =>
    simp only [Command.run, Locked.effects, Manager.releaseTab]
    split
    · exact h_valid ..
    · rfl
  | revokeTab =>
    simp only [Command.run, Locked.effects, Manager.revokeTab]
    split <;> rfl
  | revokeBrowser => rfl
  | closeSession =>
    simp only [Command.run, Locked.effects, Manager.closeSession]
    split
    · rfl
    · split <;> rfl
  | stopAll => rfl
  | cancelOperation =>
    simp only [Command.run, Locked.effects, Manager.cancelOperation]
    split
    · rfl
    · split
      · exact Manager.artifacts_finishAwaiting m now ..
      · rfl
      · rfl
  | createActionConfirmation =>
    simp only [Command.run, Locked.effects, Manager.createActionConfirmation]
    split
    · rfl
    · unfold Manager.createConfirmationLocked
      split <;> rfl
  | createCapabilityConfirmation =>
    simp only [Command.run, Locked.effects, Manager.createCapabilityConfirmation]
    split
    · rfl
    · split
      · rfl
      · split
        · rfl
        · unfold Manager.createConfirmationLocked
          split <;> rfl
  | resolveConfirmation =>
    simp only [Command.run, Locked.effects, Manager.resolveConfirmation]
    split
    · rfl
    · split
      · rfl
      · split
        · exact Manager.artifacts_finishAwaiting _ now ..
        · split
          · split
            · rfl
            · split <;> rfl
          · split
            · exact Manager.artifacts_finishAwaiting _ now ..
            · rfl
  | authorizeActionConfirmation =>
    simp only [Command.run, Locked.effects, Manager.authorizeActionConfirmation]
    split
    · rfl
    · split
      · rfl
      · split
        · exact Manager.artifacts_finishAwaiting _ now ..
        · split <;> rfl
  | consumeActionConfirmation =>
    simp only [Command.run, Locked.effects, Manager.consumeActionConfirmation]
    split
    · rfl
    · split <;> rfl
  | storeArtifact => contradiction
  | deleteArtifact => contradiction
  | janitor => contradiction

/-- The file of a new artifact has a path of its own. -/
theorem Config.made (cfg : Config) (request : Request) (random : Vector UInt8 16) (now : Time)
    (issued : List String) :
    Made cfg (newID "art_" random :: issued) (newID "art_" random)
      (cfg.artifact request (newID "art_" random) now).path :=
  ⟨List.mem_cons_self, dash_not_mem_newID random, _, rfl⟩

omit [DecidableEq κ] [DecidableEq ι] in
/-- The table has no artifact with a new id. -/
theorem Inv.table_fresh (hI : Inv cfg s) {id : String} (h_id : id ∉ s.issued) :
    s.manager.artifacts id = none := by
  by_contra h_some
  obtain ⟨a, h_a⟩ := Option.ne_none_iff_exists'.mp h_some
  have h_same := hI.table id a h_a
  refine hI.fresh h_id .table a ?_ h_same
  change s.manager.artifacts a.artifactID = some a
  rw [h_same]
  exact h_a

omit [DecidableEq κ] in
/-- A file that is written, or of which nothing was created, is the call's own. -/
theorem Inv.write (hI : Inv cfg s) {c : ι} {request : Request} (h_c : s.calls c = .checked request)
    {random : Vector UInt8 16} (h_new : newID "art_" random ∉ s.issued) {outcome : WriteOutcome}
    (h_outcome : outcome ≠ .failed true) (now : Time) :
    Inv cfg (s.write cfg c request random outcome now) := by
  have h_before : ∀ a, (s.calls c).artifact ≠ some a := by
    intro a
    rw [h_c]
    rintro ⟨⟩
  have h_none := hI.table_fresh h_new
  have h_made := cfg.made request random now s.issued
  unfold State.write
  -- the type of the artifact is checked first
  split
  · exact hI.proceeds (by rw [h_c]; rfl) (by simp)
  · let a := cfg.artifact request (newID "art_" random) now
    cases outcome with
    | written =>
      -- The id is new, so nothing is at it yet, and the file is the artifact's.
      refine hI.transfers c (newID "art_" random) (.written a) {
        calls := rfl
        issued := List.subset_cons_self ..
        table := fun _ _ => rfl
        known := .inl h_new
        before := fun b h_b => absurd h_b (h_before b)
        after := ?_
        once := .inr h_none
        refused := by simp
        files := ?_ }
      · rintro b (h_b | h_b)
        · cases h_b
          exact ⟨rfl, h_made⟩
        · have h_b := h_none.symm.trans h_b
          contradiction
      · intro path h_path
        change Function.update s.files a.path true path = true at h_path
        by_cases h_same : path = a.path
        · exact .inl ⟨a, .inl rfl, h_same.symm⟩
        · rw [Function.update_of_ne h_same] at h_path
          exact .inr ⟨h_path, fun p b h_b h_id => absurd h_id (hI.fresh h_new p b h_b)⟩
    | failed created =>
      -- The write has left no file.
      have h_created : created = false := by
        cases created with
        | false => rfl
        | true => exact absurd rfl h_outcome
      subst h_created
      refine hI.transfers c (newID "art_" random)
        (.refused (some (a.artifactID, a.path)) internal) {
        calls := rfl
        issued := List.subset_cons_self ..
        table := fun _ _ => rfl
        known := .inl h_new
        before := fun b h_b => absurd h_b (h_before b)
        after := ?_
        once := .inl rfl
        refused := ?_
        files := ?_ }
      · rintro b (h_b | h_b)
        · contradiction
        · have h_b := h_none.symm.trans h_b
          contradiction
      · intro made rpcErr h_phase
        cases h_phase
        exact ⟨rfl, h_made, h_none⟩
      · intro path h_path
        change Function.update s.files a.path (s.files a.path || false) path = true at h_path
        rw [Bool.or_false, Function.update_eq_self] at h_path
        exact .inr ⟨h_path, fun p b h_b h_id => absurd h_id (hI.fresh h_new p b h_b)⟩

omit [DecidableEq κ] in
/-- The file of a call becomes that of an entry of the table, or is removed. -/
theorem Inv.commit (hI : Inv cfg s) {c : ι} {a : Artifact} (h_c : s.calls c = .written a) :
    Inv cfg (s.commit c a) := by
  have h_at : At s a (.call c) := by
    change (s.calls c).artifact = some a
    rw [h_c]
    rfl
  -- The artifact is entered, or the call goes on with it.
  have h_locked : s.manager.storeArtifact a =
      { manager := { s.manager with
          artifacts := Function.update s.manager.artifacts a.artifactID (some a) }
        result := .ok a } ∨
      ∃ rpcErr, s.manager.storeArtifact a = { manager := s.manager, result := .error rpcErr } := by
    unfold Manager.storeArtifact
    split
    · exact .inl rfl
    · split
      · exact .inr ⟨_, rfl⟩
      · exact .inl rfl
  unfold State.commit
  rcases h_locked with h_locked | ⟨rpcErr, h_locked⟩
  · simp only [h_locked]
    refine hI.transfers c a.artifactID (.stored a) {
      calls := rfl
      issued := List.Subset.refl _
      table := fun id h_id => Function.update_of_ne h_id ..
      known := .inr ⟨_, a, h_at, rfl, by rintro d ⟨⟩; rfl⟩
      before := ?_
      after := ?_
      once := .inl rfl
      refused := by simp
      files := ?_ }
    · intro b h_b
      rw [h_at] at h_b
      cases h_b
      rfl
    · rintro b (h_b | h_b)
      · contradiction
      · change Function.update s.manager.artifacts a.artifactID (some a) a.artifactID =
          some b at h_b
        rw [Function.update_self, Option.some_inj] at h_b
        subst h_b
        exact ⟨rfl, hI.made _ a h_at⟩
    · intro path h_path
      by_cases h_same : a.path = path
      · refine .inl ⟨a, .inr ?_, h_same⟩
        exact Function.update_self ..
      · refine .inr ⟨h_path, fun p b h_b h_id => ?_⟩
        rw [hI.eq_of_id h_b h_at h_id]
        exact h_same
  · simp only [h_locked]
    exact hI.proceeds (by rw [h_c]; rfl) (by simp)

omit [DecidableEq κ] in
/-- A call that removes the file of its artifact is done with it. -/
theorem Inv.unlinks (hI : Inv cfg s) {c : ι} {a : Artifact} {phase : Phase}
    (h_at : At s a (.call c)) (h_phase : phase.artifact = none)
    (h_refused : ∀ made rpcErr, phase = .refused (some made) rpcErr →
      made = (a.artifactID, a.path)) : Inv cfg ((s.remove a.path false).setCall c phase) := by
  -- the artifact is at the call, so not in the table
  have h_none : s.manager.artifacts a.artifactID = none := by
    by_contra h_some
    obtain ⟨b, h_b⟩ := Option.ne_none_iff_exists'.mp h_some
    have h_id := hI.table _ b h_b
    have h_place := hI.place .table (.call c) b a (by rw [At, h_id]; exact h_b) h_at h_id
    contradiction
  refine hI.transfers c a.artifactID phase {
    calls := rfl
    issued := List.Subset.refl _
    table := fun _ _ => rfl
    known := .inr ⟨_, a, h_at, rfl, by rintro d ⟨⟩; rfl⟩
    before := ?_
    after := ?_
    once := .inl h_phase
    refused := ?_
    files := ?_ }
  · intro b h_b
    rw [h_at] at h_b
    cases h_b
    rfl
  · rintro b (h_b | h_b)
    · simp [h_phase] at h_b
    · have h_b := h_none.symm.trans h_b
      contradiction
  · intro made rpcErr h
    rw [h_refused made rpcErr h]
    exact ⟨rfl, hI.made _ a h_at, h_none⟩
  -- the file is gone, the others stay
  · intro path h_path
    change Function.update s.files a.path (s.files a.path && false) path = true at h_path
    rw [Bool.and_false] at h_path
    by_cases h_same : path = a.path
    · rw [h_same, Function.update_self] at h_path
      contradiction
    · rw [Function.update_of_ne h_same] at h_path
      refine .inr ⟨h_path, fun p b h_b h_id => ?_⟩
      rw [hI.eq_of_id h_b h_at h_id]
      exact fun h_eq => h_same h_eq.symm

omit [DecidableEq κ] in
/-- The entry of the table goes, and the call has the file to remove. -/
theorem Inv.delete (hI : Inv cfg s) {c : ι} (h_c : s.calls c = .outside) (id : String) :
    Inv cfg (s.delete c id) := by
  have h_before : (s.calls c).artifact = none := by
    rw [h_c]
    rfl
  unfold State.delete Manager.deleteArtifact
  cases h_a : s.manager.artifacts id with
  | none => exact hI.proceeds h_before.symm (by simp)
  | some a =>
    have h_id := hI.table id a h_a
    subst h_id
    have h_gone : Function.update s.manager.artifacts a.artifactID none a.artifactID = none :=
      Function.update_self ..
    -- The artifact goes from the table to the call, which still has to remove the file.
    refine hI.transfers c a.artifactID (.deleting a) {
      calls := rfl
      issued := List.Subset.refl _
      table := fun id h_id => Function.update_of_ne h_id ..
      known := .inr ⟨.table, a, h_a, rfl, by rintro d ⟨⟩⟩
      before := by simp [h_before]
      after := ?_
      once := .inr h_gone
      refused := by simp
      files := ?_ }
    · rintro b (h_b | h_b)
      · cases h_b
        exact ⟨rfl, hI.made .table a h_a⟩
      · have h_b := h_gone.symm.trans h_b
        contradiction
    · intro path h_path
      by_cases h_same : a.path = path
      · exact .inl ⟨a, .inl rfl, h_same⟩
      · refine .inr ⟨h_path, fun p b h_b h_id => ?_⟩
        rw [hI.eq_of_id h_b (q := .table) h_a h_id]
        exact h_same

/-- The janitor removes what has expired. -/
theorem artifacts_janitor (m : Manager κ) (now : Time) (id : String) :
    (m.janitor now).manager.artifacts id =
      (m.artifacts id).filter fun a => !decide (a.expiresAt < now) := by
  rw [Manager.janitor, Manager.artifacts_expireConfirmations]
  rfl

omit [DecidableEq ι] in
/-- A tidy pass removes the files of what has expired. -/
theorem Inv.janitor (hI : Inv cfg s) {now : Time} {removed : List String}
    (h_tidy : Tidy s (.janitor now removed : Event ι)) : Inv cfg (s.janitor now removed) := by
  have h_entry : ∀ id a, (s.manager.janitor now).manager.artifacts id = some a ↔
      s.manager.artifacts id = some a ∧ ¬ a.expiresAt < now := by
    intro id a
    rw [artifacts_janitor, Option.filter_eq_some_iff, Bool.not_eq_true', decide_eq_false_iff_not]
  refine hI.removes rfl ?_ ?_ (fun _ _ _ h => h) ?_
  · exact fun id a h_a => ((h_entry id a).mp h_a).1
  · intro p a h_a
    cases p with
    | table => exact ((h_entry _ a).mp h_a).1
    | call c => exact h_a
  · intro path h_path
    obtain ⟨h_path, h_kept⟩ := Bool.and_eq_true_iff.mp h_path
    refine ⟨h_path, fun p a h_a h_same => ?_⟩
    cases p with
    | call c => exact h_a
    | table =>
      refine (h_entry _ a).mpr ⟨h_a, fun h_expired => ?_⟩
      -- The file of an artifact that has expired is removed.
      have h_removed := h_tidy a.artifactID a h_a h_expired (h_same ▸ h_path)
      rw [Bool.not_eq_true', List.any_eq_false] at h_kept
      refine h_kept a.artifactID h_removed ?_
      rw [show s.manager.artifacts a.artifactID = some a from h_a]
      simp [h_expired, h_same]

omit [DecidableEq κ] [DecidableEq ι] in
/-- A new daemon has an empty table, and an empty directory if it is tidy. -/
theorem Inv.restart (hI : Inv cfg s) (h_tidy : ∀ path, s.files path = false) :
    Inv cfg (s.restart cfg) := by
  -- a call that was under way ends with the process
  have h_call : ∀ c a, ((s.restart cfg).calls c).artifact ≠ some a := by
    intro c a h_a
    simp only [State.restart] at h_a
    split at h_a
    · contradiction
    · rename_i h_idle
      exact h_idle (Phase.isActive_of_artifact h_a)
  refine hI.removes rfl (fun _ _ h => by contradiction) ?_ ?_ ?_
  · intro p a h_a
    cases p with
    | table => contradiction
    | call c => exact absurd h_a (h_call c a)
  · intro c made rpcErr h_c
    simp only [State.restart] at h_c
    split at h_c
    · contradiction
    · exact h_c
  · intro path h_path
    have h_path : s.files path = true := h_path
    rw [h_tidy path] at h_path
    contradiction

/-- Tidy steps keep the invariant. -/
theorem Inv.next (hI : Inv cfg s) (he : enabled s e) (h_tidy : Tidy s e) :
    Inv cfg (next cfg s e) := by
  cases e with
  | command k now =>
    -- The table, the calls and the files are as before.
    have h_same := artifacts_command s.manager now he.2
    have h_entry : ∀ id a, (k.run s.manager now).manager.artifacts id = some a ↔
        s.manager.artifacts id = some a := by
      intro id a
      rw [h_same]
    have h_at : ∀ p a, At (Artifacts.next cfg s (.command k now)) a p ↔ At s a p := by
      intro p a
      cases p with
      | table => exact h_entry _ a
      | call c => exact Iff.rfl
    refine hI.removes rfl (fun id a => (h_entry id a).mp) (fun p a => (h_at p a).mp)
      (fun _ _ _ h => h) ?_
    exact fun path h_path => ⟨h_path, fun p a h_a _ => (h_at p a).mpr h_a⟩
  | begin c request =>
    have h_c : (s.calls c).artifact = none := by
      simp only [enabled] at he
      split at he
      · simp [*, Phase.artifact]
      · contradiction
    simp only [Artifacts.next, State.begin]
    split
    · exact hI.proceeds h_c.symm (by simp)
    · split
      · exact hI.proceeds h_c.symm (by simp)
      · exact hI.proceeds h_c.symm (by simp)
  -- the three steps of `storeArtifact`
  | write c random outcome now =>
    simp only [Artifacts.next]
    split
    case h_1 request h_c => exact hI.write h_c he.2 h_tidy now
    case h_2 => exact hI
  | commit c =>
    simp only [Artifacts.next]
    split
    case h_1 a h_c => exact hI.commit h_c
    case h_2 => exact hI
  | discard c fails =>
    simp only [Artifacts.next]
    split
    case h_1 a rpcErr h_c =>
      -- only here does the condition enter: the file is removed
      have h_fails : fails = false := h_tidy
      rw [h_fails]
      refine hI.unlinks ?_ rfl ?_
      · change (s.calls c).artifact = some a
        rw [h_c]
        rfl
      · rintro made rpcErr' ⟨⟩
        rfl
    case h_2 => exact hI
  -- the two of `deleteArtifact`
  | delete c id =>
    have h_c : s.calls c = .outside := by
      simp only [enabled] at he
      split at he
      · assumption
      · contradiction
    exact hI.delete h_c id
  | unlink c fails =>
    simp only [Artifacts.next]
    split
    case h_1 a h_c =>
      have h_fails : fails = false := h_tidy
      rw [h_fails]
      refine hI.unlinks ?_ rfl (by simp)
      change (s.calls c).artifact = some a
      rw [h_c]
      rfl
    case h_2 => exact hI
  | janitor now removed => exact hI.janitor h_tidy
  | restart => exact hI.restart h_tidy

omit [DecidableEq κ] [DecidableEq ι] in
theorem Inv.init : Inv cfg ({ manager := .new cfg.leaseTTL } : State κ ι) where
  made p a h := by cases p <;> contradiction
  table id a h := by contradiction
  place p q a b h := by cases p <;> contradiction
  refused c id path rpcErr h := by contradiction
  files path h := by contradiction

/-- **Artifacts and files.** While the file system is in order, in every state that the daemon can
reach each file is accounted for. -/
theorem accounted_of_tidy (h : ((machine κ ι cfg).restrict Tidy).Reachable s) : Accounted s := by
  have h_inv : Inv cfg s := by
    refine h.induction (P := Inv cfg) Inv.init ?_
    intro s e _ hI h_enabled
    exact hI.next h_enabled.1 h_enabled.2
  exact h_inv.accounted

/-- A daemon that keeps its artifacts under `/artifacts`; the digest is that of an empty file. -/
def sample : Config where
  artifactRoot := "/artifacts"
  sha256 _ := "e3b0c44298fc1c149afbf4c8996fb92427ae41e4649b934ca495991b7852b855"
  leaseTTL := 0

/-- A screenshot of a session. -/
def shot (sessionID : String) : Request where
  sessionID := sessionID
  tabID := "tab_7"
  kind := "screenshot"
  mimeType := "image/png"
  fileName := "shot.png"
  data := []
  ttl := 0

/-- One artifact is stored, and the session is closed while another one is written. -/
def closedMeanwhile : List (Event (Fin 2)) :=
  [.command (.openSession "ses_1" "" "") 0, .begin 0 (shot "ses_1"),
    .write 0 (.replicate 16 1) .written 0, .commit 0, .begin 1 (shot "ses_1"),
    .write 1 (.replicate 16 2) .written second, .command (.closeSession "ses_1" "") second,
    .commit 1, .discard 1 false]

/-- An artifact whose session is closed while it is written leaves no file. -/
theorem accounted_of_tidy_closedMeanwhile :
    Accounted ((machine Unit (Fin 2) sample).exec (machine Unit (Fin 2) sample).init
      closedMeanwhile) := by
  have h_runs : (machine Unit (Fin 2) sample).Runs (machine Unit (Fin 2) sample).init
      closedMeanwhile := by decide
  have h_tidy : ∀ e ∈ closedMeanwhile, ∀ s : State Unit (Fin 2), Tidy s e := by
    simp [closedMeanwhile, Tidy]
  exact accounted_of_tidy (h_runs.restrict h_tidy).reachable

/-- A write that fails after it has created the file. -/
def failedWrite : List (Event Unit) :=
  [.begin () (shot ""), .write () (.replicate 16 1) (.failed true) 0]

/-- The state after the write has failed. -/
def afterFailedWrite : State Unit Unit :=
  (machine Unit Unit sample).exec (machine Unit Unit sample).init failedWrite

/-- The artifact that the call was about to store. -/
def unstored : Artifact := sample.artifact (shot "") (newID "art_" (.replicate 16 1)) 0

/-- The file that a failed write has created stays. -/
theorem not_accounted_failedWrite :
    ¬ ∀ s, (machine Unit Unit sample).Reachable s → Accounted s := by
  intro h
  have h_runs : (machine Unit Unit sample).Runs (machine Unit Unit sample).init failedWrite := by
    decide
  have h_refused : afterFailedWrite.calls () =
      .refused (some (unstored.artifactID, unstored.path)) internal := rfl
  have h_file : afterFailedWrite.files unstored.path = true := by decide +kernel
  have h_accounted : Accounted afterFailedWrite := h _ h_runs.reachable
  have h_none := (h_accounted.refused () _ _ _ h_refused).1
  rw [h_file] at h_none
  contradiction

end BrowserControl.Core.Artifacts
