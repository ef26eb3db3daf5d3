import BrowserControl.Extension.NodeReference

/-!
# Epochs of captures

`#capture` asks the runtimes of all frames for their nodes, and looks at the epoch of the tab when
they have answered: for the snapshot that it stores, and for its response, when Chrome has told what
there is to know of the tab. The epoch is to be that of the document which was read.

`CaptureEpoch.machine` runs any number of captures. A frame is read when its runtime answers, and
`readIn` is the epoch that the tab has then. Between this and the next step of the capture,
`onCommitted` can be delivered for the tab, which drops its snapshots and raises its epoch, and then
the capture stores a snapshot of the old document with the new epoch
(`not_carriesEpoch_interrupted`). Nothing else goes wrong (`carriesEpoch_iff`).
-/

namespace BrowserControl.Extension.CaptureEpoch

open Encoding Transition

/-! ### Captures -/

/-- What the runtime of a frame has answered. -/
structure FrameSnapshot where
  frameID : ℕ
  documentID : String
  localSnapshotID : String
  /-- The epoch of the tab when the nodes were read. -/
  readIn : ℕ
  /-- The tab was noticed to commit a document since. -/
  outdated : Bool := false

/-- What a snapshot says about the document, and a response likewise. -/
structure SnapshotState where
  snapshotID : String
  tabID : String
  documentEpoch : ℕ
  frames : List FrameSnapshot

/-- How far a call of `tabSnapshot` is. -/
inductive Phase where
  | outside
  /-- `#invokeAll` is waited for. -/
  | reading (tabID : String) (frames : List FrameSnapshot)
  /-- The snapshot is stored, and `chrome.tabs.get` is waited for. -/
  | asking (snapshotID tabID : String) (frames : List FrameSnapshot)
  /-- The response gets the rest of its members. -/
  | completing (response : SnapshotState)
  | settled (answer : Except RpcError SnapshotState)

namespace Phase

/-- Nothing of the call is left to do. -/
def isOutside : Phase → Bool
  | .outside => true
  | _ => false

/-- The call waits for `chrome.tabs.get`. -/
def isAsking : Phase → Bool
  | .asking .. => true
  | _ => false

/-- The call waits for what makes up its response. -/
def isCompleting : Phase → Bool
  | .completing _ => true
  | _ => false

/-- The call reads frames. -/
def isReading : Phase → Bool
  | .reading .. => true
  | _ => false

/-- The capture waits for something. -/
def waits (phase : Phase) : Bool := phase.isReading || phase.isAsking || phase.isCompleting

/-- The frames that are read. -/
def frames : Phase → List FrameSnapshot
  | .reading _ frames | .asking _ _ frames => frames
  | .completing response => response.frames
  | .outside | .settled _ => []

/-- The frames of a tab are outdated, if the capture has not made up its response. -/
def outdate (tabID : String) : Phase → Phase
  | .reading id frames =>
    .reading id (if id = tabID then frames.map fun f => { f with outdated := true } else frames)
  | .asking snapshotID id frames =>
    .asking snapshotID id
      (if id = tabID then frames.map fun f => { f with outdated := true } else frames)
  | phase => phase

end Phase

/-- The tabs, the snapshots and the calls, with what was stored in the past. -/
structure State where
  registry : TabRegistry := .empty
  snapshots : List SnapshotState := []
  captures : ℕ → Phase := fun _ => .outside
  /-- All snapshots that were stored. -/
  stored : List SnapshotState := []

/-- What happens to the tabs, and the steps of the calls. -/
inductive Event where
  | ensure (chromeTabID : ℕ) (handle : String) (owned : Bool)
  /-- `tabs.onRemoved` -/
  | removed (chromeTabID : ℕ)
  | claim (tabID sessionID leaseID : String) (force : Bool)
  | release (tabID : String)
  | releaseAll
  | dropTabSnapshots (tabID : String)
  /-- `stopAll` forgets the snapshots. -/
  | clearSnapshots
  /-- `webNavigation.onCommitted`, for the main frame -/
  | committed (chromeTabID : ℕ)
  | capture (c : ℕ) (params : Object)
  /-- The runtime of a frame reads its nodes. -/
  | read (c frameID : ℕ) (documentID localSnapshotID : String)
  /-- All frames have answered. -/
  | answered (c : ℕ) (snapshotID : String)
  /-- `chrome.tabs.get` has found the tab, or has not. -/
  | found (c : ℕ) (ok : Bool)
  | complete (c : ℕ)
  /-- Something that the capture waits for fails. -/
  | fail (c : ℕ) (error : RpcError)

namespace State

variable (s : State)

/-- One call comes to another phase. -/
def setPhase (c : ℕ) (phase : Phase) : State :=
  { s with captures := Function.update s.captures c phase }

/-- The epoch of the tab that a capture holds. -/
def epoch (tabID : String) : ℕ := (s.registry.epochOf tabID).getD 0

/-- `#dropTabSnapshots`: the snapshots of a tab are forgotten. -/
def dropTabSnapshots (tabID : String) : State :=
  { s with snapshots := s.snapshots.filter (·.tabID ≠ tabID) }

/-- `tabs.onRemoved`: the tab goes, and its snapshots with it. -/
def removed (chromeTabID : ℕ) : State :=
  match s.registry.fromChromeID chromeTabID with
  | some state =>
    { s.dropTabSnapshots state.tabID with registry := s.registry.remove chromeTabID }
  | none => s

/-- `onCommitted` for the main frame: the epoch is counted up, and what was read is outdated. -/
def committed (chromeTabID : ℕ) : State :=
  match s.registry.fromChromeID chromeTabID with
  | some state =>
    { s.dropTabSnapshots state.tabID with
      registry := s.registry.noteNavigation chromeTabID
      captures := fun c => (s.captures c).outdate state.tabID }
  | none => s

/-- `#storeSnapshot`: only the newest snapshots are kept. -/
def storeSnapshot (snapshot : SnapshotState) : State :=
  { s with
    snapshots := NodeReference.keepNewest NodeReference.extensionSnapshots
      (s.snapshots ++ [snapshot])
    stored := s.stored ++ [snapshot] }

/-- `#tabGet`, up to the call of Chrome. -/
def tabGet (c : ℕ) (snapshotID tabID : String) (frames : List FrameSnapshot) : State :=
  s.setPhase c <|
    match s.registry.fromHandle tabID with
    | .ok _ => .asking snapshotID tabID frames
    | .error error => .settled (.error error)

/-- `#invokeAll` is over; without a frame the call fails. -/
def answered (c : ℕ) (snapshotID tabID : String) (frames : List FrameSnapshot) : State :=
  if frames.isEmpty then
    s.setPhase c <| .settled <| .error
      { kind := "UNSUPPORTED_PAGE"
        message := "locator runtime could not be injected into this page" }
  else
    (s.storeSnapshot { snapshotID, tabID, documentEpoch := s.epoch tabID, frames }).tabGet c
      snapshotID tabID frames

/-- `#snapshot` -/
def snapshot (snapshotID : String) (state : TabState) : Except RpcError SnapshotState :=
  let stale : RpcError :=
    { kind := "STALE_REFERENCE"
      message := "snapshot does not belong to the current document"
      retryable := true }
  match s.snapshots.find? (·.snapshotID = snapshotID) with
  | none => .error stale
  | some snapshot =>
    if snapshot.tabID ≠ state.tabID ∨ snapshot.documentEpoch ≠ state.documentEpoch then .error stale
    else .ok snapshot

/-- What the capture does next, if it waits for the frames. -/
def whenReading (c : ℕ) (go : String → List FrameSnapshot → State) : State :=
  match s.captures c with
  | .reading tabID frames => go tabID frames
  | _ => s

/-- What it does next, if it waits for Chrome. -/
def whenAsking (c : ℕ) (go : String → String → List FrameSnapshot → State) : State :=
  match s.captures c with
  | .asking snapshotID tabID frames => go snapshotID tabID frames
  | _ => s

/-- What it does next, if it completes its response. -/
def whenCompleting (c : ℕ) (go : SnapshotState → State) : State :=
  match s.captures c with
  | .completing response => go response
  | _ => s

/-- One step of the worker. -/
def next (s : State) : Event → State
  | .ensure chromeTabID handle owned =>
    { s with registry := s.registry.ensure chromeTabID handle owned }
  | .removed chromeTabID => s.removed chromeTabID
  | .claim tabID sessionID leaseID force =>
    match s.registry.claim tabID sessionID leaseID force with
    | .ok (R, _) => { s with registry := R }
    | .error _ => s
  | .release tabID =>
    match s.registry.release tabID with
    | .ok R => { s with registry := R }
    | .error _ => s
  | .releaseAll => { s with registry := s.registry.releaseAll.1 }
  | .dropTabSnapshots tabID => s.dropTabSnapshots tabID
  | .clearSnapshots => { s with snapshots := [] }
  | .committed chromeTabID => s.committed chromeTabID
  -- The capture begins with `claimed` and then asks frame after frame.
  | .capture c params =>
    s.setPhase c <|
      match SecureInput.claimed s.registry params with
      | .ok state => .reading state.tabID []
      | .error error => .settled (.error error)
  -- `readIn` is a ghost: the epoch in which the frame was read.
  | .read c frameID documentID localSnapshotID =>
    s.whenReading c fun tabID frames =>
      s.setPhase c <| .reading tabID <|
        frames ++ [{ frameID, documentID, localSnapshotID, readIn := s.epoch tabID }]
  | .answered c snapshotID =>
    s.whenReading c fun tabID frames => s.answered c snapshotID tabID frames
  -- `tabs.get` after the snapshot is stored: the tab may be gone by then.
  | .found c ok =>
    s.whenAsking c fun snapshotID tabID frames =>
      s.setPhase c <|
        if ok then .completing { snapshotID, tabID, documentEpoch := s.epoch tabID, frames }
        else .settled (.error { kind := "TAB_CLOSED", message := "tab no longer exists" })
  | .complete c => s.whenCompleting c fun response => s.setPhase c (.settled (.ok response))
  | .fail c error => s.setPhase c (.settled (.error error))

/-- A frame is read once, and the ids of snapshots are random. -/
def enabled (s : State) : Event → Prop
  | .capture c _ => (s.captures c).isOutside = true
  | .read c frameID _ _ =>
    (s.captures c).isReading = true ∧ ∀ f ∈ (s.captures c).frames, f.frameID ≠ frameID
  | .answered c snapshotID =>
    (s.captures c).isReading = true ∧ ∀ snapshot ∈ s.stored, snapshot.snapshotID ≠ snapshotID
  | .found c _ => (s.captures c).isAsking = true
  | .complete c => (s.captures c).isCompleting = true
  | .fail c _ => (s.captures c).waits = true
  | _ => True

instance decidableEnabled : ∀ (s : State) (e : Event), Decidable (s.enabled e)
  | s, .capture c _ => inferInstanceAs (Decidable ((s.captures c).isOutside = true))
  | s, .read c frameID _ _ => inferInstanceAs (Decidable
    ((s.captures c).isReading = true ∧ ∀ f ∈ (s.captures c).frames, f.frameID ≠ frameID))
  | s, .answered c snapshotID => inferInstanceAs (Decidable
    ((s.captures c).isReading = true ∧ ∀ snapshot ∈ s.stored, snapshot.snapshotID ≠ snapshotID))
  | s, .found c _ => inferInstanceAs (Decidable ((s.captures c).isAsking = true))
  | s, .complete c => inferInstanceAs (Decidable ((s.captures c).isCompleting = true))
  | s, .fail c _ => inferInstanceAs (Decidable ((s.captures c).waits = true))
  | _, .ensure _ _ _ | _, .removed _ | _, .claim _ _ _ _ | _, .release _ | _, .releaseAll
  | _, .dropTabSnapshots _ | _, .clearSnapshots | _, .committed _ => isTrue trivial

end State

/-- The worker from its start on. -/
def machine : Machine State Event where
  init := {}
  enabled := State.enabled
  next := State.next

instance (s : State) (e : Event) : Decidable (machine.enabled s e) := State.decidableEnabled s e

/-! ### What a capture is to say -/

/-- All frames were read in the epoch. -/
def Fits (epoch : ℕ) (frames : List FrameSnapshot) : Prop := ∀ f ∈ frames, f.readIn = epoch

/-- Snapshots and responses have the epoch in which their frames were read, and so a snapshot that
is accepted was read in the epoch that the tab has. -/
structure CarriesEpoch (s : State) : Prop where
  stored : ∀ snapshot ∈ s.stored, Fits snapshot.documentEpoch snapshot.frames
  response : ∀ c response, s.captures c = .settled (.ok response) →
    Fits response.documentEpoch response.frames
  accepted : ∀ snapshotID state snapshot, s.snapshot snapshotID state = .ok snapshot →
    Fits state.documentEpoch snapshot.frames

/-- No commit of the tab was noticed since the frames of the capture were read. -/
def State.Current (s : State) (c : ℕ) : Prop := ∀ f ∈ (s.captures c).frames, f.outdated = false

/-- The condition: what a capture stores and what it answers was current when it took the epoch. -/
def Undisturbed (s : State) : Event → Prop
  | .answered c _ | .complete c => s.Current c
  | _ => True

/-! ### The invariant -/

/-- The frames were read in the epoch, or before it if they are outdated. -/
def Tracks (epoch : ℕ) (frames : List FrameSnapshot) : Prop :=
  ∀ f ∈ frames, (f.outdated = false → f.readIn = epoch) ∧ (f.outdated = true → f.readIn < epoch)

namespace Tracks

variable {epoch : ℕ} {frames : List FrameSnapshot}

/-- Frames that are all current were read in this epoch. -/
theorem fits (h : Tracks epoch frames) (h_current : ∀ f ∈ frames, f.outdated = false) :
    Fits epoch frames := fun f h_f => (h f h_f).1 (h_current f h_f)

/-- With an outdated frame the epoch does not fit. -/
theorem not_fits (h : Tracks epoch frames) (h_not : ¬ ∀ f ∈ frames, f.outdated = false) :
    ¬ Fits epoch frames := by
  intro h_fits
  refine h_not fun f h_f => ?_
  by_contra h_outdated
  exact ((h f h_f).2 (Bool.eq_true_of_not_eq_false h_outdated)).ne (h_fits f h_f)

/-- A frame that is read now is current. -/
theorem append (h : Tracks epoch frames) (frameID : ℕ) (documentID localSnapshotID : String) :
    Tracks epoch (frames ++ [{ frameID, documentID, localSnapshotID, readIn := epoch }]) := by
  intro f h_f
  obtain h_old | h_new := List.mem_append.mp h_f
  · exact h f h_old
  · obtain rfl := List.mem_singleton.mp h_new
    exact ⟨fun _ => rfl, fun h_outdated => (by cases h_outdated)⟩

/-- The next epoch. -/
theorem outdate (h : Tracks epoch frames) :
    Tracks (epoch + 1) (frames.map fun f => { f with outdated := true }) := by
  intro f h_f
  obtain ⟨old, h_old, rfl⟩ := List.mem_map.mp h_f
  refine ⟨fun h_current => (by cases h_current), fun _ => ?_⟩
  change old.readIn < epoch + 1
  cases h_outdated : old.outdated with
  | false => exact ((h old h_old).1 h_outdated).le.trans_lt (Nat.lt_succ_self epoch)
  | true => exact ((h old h_old).2 h_outdated).trans (Nat.lt_succ_self epoch)

end Tracks

/-- A capture keeps track of the epoch of its tab until it has made up its response. -/
def Phase.Tracked (R : TabRegistry) : Phase → Prop
  | .reading tabID frames | .asking _ tabID frames =>
    ∃ epoch, R.epochOf tabID = some epoch ∧ Tracks epoch frames
  | .completing response => Tracks response.documentEpoch response.frames
  | .settled (.ok response) => Fits response.documentEpoch response.frames
  | .outside | .settled (.error _) => True

/-- A registry that knows the same epochs changes nothing for a call. -/
theorem Phase.Tracked.registry {R R' : TabRegistry} {phase : Phase} (h : phase.Tracked R)
    (h_epochs : ∀ {tabID : String} {epoch : ℕ}, R.epochOf tabID = some epoch →
      R'.epochOf tabID = some epoch) : phase.Tracked R' := by
  -- Only the epochs of the registry are asked for, in every phase.
  cases phase with
  | reading tabID frames =>
    obtain ⟨epoch, h_epoch, h_tracks⟩ := h
    exact ⟨epoch, h_epochs h_epoch, h_tracks⟩
  | asking snapshotID tabID frames =>
    obtain ⟨epoch, h_epoch, h_tracks⟩ := h
    exact ⟨epoch, h_epochs h_epoch, h_tracks⟩
  | completing response => exact h
  | settled answer =>
    cases answer with
    | ok response => exact h
    | error error => trivial
  | outside => trivial

/-- A commit of a tab is noticed. -/
theorem Phase.Tracked.outdate {R : TabRegistry} {phase : Phase} (h : phase.Tracked R) {n : ℕ}
    {state : TabState} (h_state : R.fromChromeID n = some state) :
    (phase.outdate state.tabID).Tracked (R.noteNavigation n) := by
  have h_own : R.epochOf state.tabID = some state.documentEpoch := by
    rw [TabRegistry.epochOf, (TabRegistry.fromChromeID_eq_some.mp h_state).2, Option.map_some]
  -- the tab of the capture has navigated, or another one
  have h_next : ∀ {tabID : String} {frames : List FrameSnapshot},
      (∃ epoch, R.epochOf tabID = some epoch ∧ Tracks epoch frames) →
        ∃ epoch, (R.noteNavigation n).epochOf tabID = some epoch ∧ Tracks epoch
          (if tabID = state.tabID then frames.map fun f => { f with outdated := true }
            else frames) := by
    rintro tabID frames ⟨epoch, h_epoch, h_tracks⟩
    rw [TabRegistry.epochOf_noteNavigation h_state]
    by_cases h_eq : tabID = state.tabID
    · rw [h_eq, h_own] at h_epoch
      obtain rfl := Option.some_inj.mp h_epoch
      rw [if_pos h_eq, if_pos h_eq]
      exact ⟨_, rfl, h_tracks.outdate⟩
    · rw [if_neg h_eq, if_neg h_eq]
      exact ⟨epoch, h_epoch, h_tracks⟩
  cases phase with
  | reading tabID frames => exact h_next h
  | asking snapshotID tabID frames => exact h_next h
  | completing response => exact h
  | settled answer =>
    cases answer with
    | ok response => exact h
    | error error => trivial
  | outside => trivial

/-- Calls and snapshots agree with the registry. -/
structure Inv (s : State) : Prop where
  captures : ∀ c, (s.captures c).Tracked s.registry
  stored : ∀ snapshot ∈ s.stored, Fits snapshot.documentEpoch snapshot.frames
  snapshots : ∀ snapshot ∈ s.snapshots, snapshot ∈ s.stored

namespace Inv

variable {s : State}

theorem init : Inv {} where
  captures _ := trivial
  stored _ h := absurd h List.not_mem_nil
  snapshots _ h := absurd h List.not_mem_nil

/-- What is accepted is one of the stored snapshots, and says that it is from this epoch. -/
theorem carriesEpoch (h : Inv s) : CarriesEpoch s where
  stored := h.stored
  response c response h_response := by
    -- The response carries the epoch that the capture was tracked with.
    have h_tracked := h.captures c
    rw [h_response] at h_tracked
    exact h_tracked
  accepted snapshotID state snapshot h_accepted := by
    unfold State.snapshot at h_accepted
    dsimp only at h_accepted
    split at h_accepted
    case h_1 => cases h_accepted
    case h_2 found h_find =>
      split_ifs at h_accepted with h_same
      obtain rfl := Except.ok.inj h_accepted
      have h_epoch : found.documentEpoch = state.documentEpoch := not_not.mp (not_or.mp h_same).2
      rw [← h_epoch]
      exact h.stored found (h.snapshots found (List.mem_of_find?_eq_some h_find))

/-- Changes of claims and handles leave the epochs alone. -/
theorem registry (h : Inv s) {R : TabRegistry} (h_epochs : ∀ {tabID : String} {epoch : ℕ},
    s.registry.epochOf tabID = some epoch → R.epochOf tabID = some epoch) :
    Inv { s with registry := R } where
  captures c := (h.captures c).registry h_epochs
  stored := h.stored
  snapshots := h.snapshots

/-- A call may come to any phase that agrees with the registry. -/
theorem setPhase (h : Inv s) (c : ℕ) {phase : Phase} (h_phase : phase.Tracked s.registry) :
    Inv (s.setPhase c phase) where
  captures c' := by
    change (Function.update s.captures c phase c').Tracked s.registry
    by_cases h_eq : c' = c
    · subst h_eq
      rw [Function.update_self]
      exact h_phase
    · rw [Function.update_of_ne h_eq]
      exact h.captures c'
  stored := h.stored
  snapshots := h.snapshots

/-- Forgetting snapshots keeps what is said of the others. -/
theorem dropTabSnapshots (h : Inv s) (tabID : String) : Inv (s.dropTabSnapshots tabID) where
  captures := h.captures
  stored := h.stored
  snapshots snapshot h_snapshot := h.snapshots snapshot (List.mem_of_mem_filter h_snapshot)

/-- A tab that goes takes its calls' epoch with it, and no claim about it is left. -/
theorem removed (h : Inv s) (n : ℕ) : Inv (s.removed n) := by
  unfold State.removed
  cases h_state : s.registry.fromChromeID n with
  | none => exact h
  | some state =>
    refine (h.dropTabSnapshots state.tabID).registry fun h_epoch => ?_
    rw [TabRegistry.epochOf_remove]
    exact h_epoch

/-- A new document outdates what the calls have read of the tab. -/
theorem committed (h : Inv s) (n : ℕ) : Inv (s.committed n) := by
  unfold State.committed
  cases h_state : s.registry.fromChromeID n with
  | none => exact h
  | some state =>
    have h_drop := h.dropTabSnapshots state.tabID
    exact ⟨fun c => (h.captures c).outdate h_state, h_drop.stored, h_drop.snapshots⟩

/-- A snapshot that fits may be stored. -/
theorem storeSnapshot (h : Inv s) {snapshot : SnapshotState}
    (h_fits : Fits snapshot.documentEpoch snapshot.frames) : Inv (s.storeSnapshot snapshot) where
  captures := h.captures
  stored snapshot' h_mem := by
    obtain h_old | h_new := List.mem_append.mp h_mem
    · exact h.stored snapshot' h_old
    · obtain rfl := List.mem_singleton.mp h_new
      exact h_fits
  snapshots snapshot' h_mem := by
    obtain h_old | h_new := List.mem_append.mp (List.mem_of_mem_drop h_mem)
    · exact List.mem_append_left _ (h.snapshots snapshot' h_old)
    · exact List.mem_append_right _ h_new

end Inv

/-! ### Steps -/

/-- `#claimed` finds a tab that is registered. -/
theorem epochOf_of_claimed {R : TabRegistry} {params : Object} {state : TabState}
    (h : SecureInput.claimed R params = .ok state) :
    R.epochOf state.tabID = some state.documentEpoch := by
  obtain ⟨tabID, -, h⟩ := of_bind_ok h
  obtain ⟨state', h_asserted, h⟩ := of_bind_ok h
  have h_handle := (TabRegistry.assertClaimed_ok h_asserted).1
  have h_same : state' = state := by
    split at h
    · split_ifs at h
      exact Except.ok.inj h
    · exact Except.ok.inj h
  subst h_same
  rw [R.named (TabRegistry.fromHandle_ok h_handle).2]
  exact TabRegistry.epochOf_of_fromHandle h_handle

/-- The epoch of a tab that is known. -/
theorem epoch_eq {s : State} {tabID : String} {epoch : ℕ}
    (h : s.registry.epochOf tabID = some epoch) : s.epoch tabID = epoch := by
  unfold State.epoch
  rw [h, Option.getD_some]

/-- What a call that reads has. -/
theorem exists_of_isReading {phase : Phase} (h : phase.isReading = true) :
    ∃ tabID frames, phase = .reading tabID frames := by
  cases phase with
  | reading tabID frames => exact ⟨tabID, frames, rfl⟩
  | _ => cases h

/-- What a call that completes has. -/
theorem exists_of_isCompleting {phase : Phase} (h : phase.isCompleting = true) :
    ∃ response, phase = .completing response := by
  cases phase with
  | completing response => exact ⟨response, rfl⟩
  | _ => cases h

/-- The phase of a capture says what it does next. -/
theorem whenReading_eq {s : State} {c : ℕ} {tabID : String} {frames : List FrameSnapshot}
    (h : s.captures c = .reading tabID frames) (go : String → List FrameSnapshot → State) :
    s.whenReading c go = go tabID frames := by
  unfold State.whenReading
  rw [h]

/-- A call that completes goes on. -/
theorem whenCompleting_eq {s : State} {c : ℕ} {response : SnapshotState}
    (h : s.captures c = .completing response) (go : SnapshotState → State) :
    s.whenCompleting c go = go response := by
  unfold State.whenCompleting
  rw [h]

namespace Inv

variable {s : State}

/-- A call begins with no frame. -/
theorem capture (h : Inv s) (c : ℕ) (params : Object) : Inv (s.next (.capture c params)) := by
  refine h.setPhase c ?_
  cases h_claimed : SecureInput.claimed s.registry params with
  | error error => trivial
  | ok state =>
    exact ⟨state.documentEpoch, epochOf_of_claimed h_claimed, fun f h_f =>
      absurd h_f List.not_mem_nil⟩

/-- It is enough to look at a call that reads, in the epoch of its tab. -/
theorem whenReading (h : Inv s) (c : ℕ) {go : String → List FrameSnapshot → State}
    (h_go : ∀ tabID frames, s.captures c = .reading tabID frames →
      s.registry.epochOf tabID = some (s.epoch tabID) → Tracks (s.epoch tabID) frames →
        Inv (go tabID frames)) : Inv (s.whenReading c go) := by
  have h_tracked := h.captures c
  unfold State.whenReading
  cases h_phase : s.captures c with
  | reading tabID frames =>
    rw [h_phase] at h_tracked
    obtain ⟨epoch, h_epoch, h_tracks⟩ := h_tracked
    obtain rfl := epoch_eq h_epoch
    exact h_go tabID frames h_phase h_epoch h_tracks
  | _ => exact h

/-- Another frame is read. -/
theorem read (h : Inv s) (c frameID : ℕ) (documentID localSnapshotID : String) :
    Inv (s.next (.read c frameID documentID localSnapshotID)) := by
  refine h.whenReading c fun tabID frames _ h_epoch h_tracks => h.setPhase c ?_
  exact ⟨_, h_epoch, h_tracks.append frameID documentID localSnapshotID⟩

/-- The frames are those of the epoch, and so is the snapshot. -/
theorem answered (h : Inv s) {c : ℕ} (h_current : s.Current c) (snapshotID : String) :
    Inv (s.next (.answered c snapshotID)) := by
  refine h.whenReading c fun tabID frames h_phase h_epoch h_tracks => ?_
  unfold State.Current at h_current
  rw [h_phase] at h_current
  unfold State.answered
  split_ifs
  · exact h.setPhase c trivial
  · refine (h.storeSnapshot (h_tracks.fits h_current)).setPhase c ?_
    -- the tab can be gone by now, but what the capture holds of it has its epoch still
    cases h_handle : s.registry.fromHandle tabID with
    | ok state =>
      change Phase.Tracked _ (match s.registry.fromHandle tabID with
        | .ok _ => _
        | .error error => _)
      rw [h_handle]
      exact ⟨_, h_epoch, h_tracks⟩
    | error error =>
      change Phase.Tracked _ (match s.registry.fromHandle tabID with
        | .ok _ => _
        | .error error => _)
      rw [h_handle]
      trivial

/-- The tab of the snapshot is still there, or not. -/
theorem found (h : Inv s) (c : ℕ) (ok : Bool) : Inv (s.next (.found c ok)) := by
  have h_tracked := h.captures c
  change Inv (s.whenAsking c _)
  unfold State.whenAsking
  cases h_phase : s.captures c with
  | asking snapshotID tabID frames =>
    rw [h_phase] at h_tracked
    obtain ⟨epoch, h_epoch, h_tracks⟩ := h_tracked
    obtain rfl := epoch_eq h_epoch
    refine h.setPhase c ?_
    cases ok with
    | false => trivial
    | true => exact h_tracks
  | _ => exact h

/-- The response may be given where all that was read is current. -/
theorem complete (h : Inv s) {c : ℕ} (h_current : s.Current c) :
    Inv (s.next (.complete c)) := by
  have h_tracked := h.captures c
  unfold State.Current at h_current
  change Inv (s.whenCompleting c _)
  unfold State.whenCompleting
  cases h_phase : s.captures c with
  | completing response =>
    rw [h_phase] at h_tracked h_current
    exact h.setPhase c (Tracks.fits h_tracked h_current)
  | _ => exact h

/-- **A step that meets the condition keeps the invariant.** -/
theorem next (h : Inv s) {e : Event} (h_c : Undisturbed s e) : Inv (s.next e) := by
  cases e with
  -- The writes of the registry: none of them changes the epoch of a tab that is known.
  | ensure chromeTabID handle owned =>
    exact h.registry fun h_epoch => TabRegistry.epochOf_ensure h_epoch chromeTabID handle owned
  | removed chromeTabID => exact h.removed chromeTabID
  | claim tabID sessionID leaseID force =>
    unfold State.next
    cases h_claim : s.registry.claim tabID sessionID leaseID force with
    | error error => simpa only [h_claim] using h
    | ok claimed =>
      obtain ⟨R, state⟩ := claimed
      obtain ⟨-, rfl⟩ := TabRegistry.claim_ok h_claim
      simp only [h_claim]
      refine h.registry fun h_epoch => ?_
      rw [TabRegistry.epochOf_setClaim]
      exact h_epoch
  | release tabID =>
    unfold State.next
    cases h_release : s.registry.release tabID with
    | error error => simpa only [h_release] using h
    | ok R =>
      obtain ⟨-, -, rfl⟩ := TabRegistry.release_ok h_release
      simp only [h_release]
      refine h.registry fun h_epoch => ?_
      rw [TabRegistry.epochOf_setClaim]
      exact h_epoch
  | releaseAll =>
    refine h.registry fun h_epoch => ?_
    unfold TabRegistry.releaseAll
    rw [TabRegistry.epochOf_setClaim]
    exact h_epoch
  -- Snapshots are only taken out of the list.
  | dropTabSnapshots tabID => exact h.dropTabSnapshots tabID
  | clearSnapshots =>
    exact ⟨h.captures, h.stored, fun snapshot h_snapshot => absurd h_snapshot List.not_mem_nil⟩
  | committed chromeTabID => exact h.committed chromeTabID
  -- the steps of a capture; the condition speaks about the two that end it
  | capture c params => exact h.capture c params
  | read c frameID documentID localSnapshotID => exact h.read c frameID documentID localSnapshotID
  | answered c snapshotID => exact h.answered h_c snapshotID
  | found c ok => exact h.found c ok
  | complete c => exact h.complete h_c
  | fail c error => exact h.setPhase c trivial

/-- A snapshot that is stored too late is from another epoch. -/
theorem broken_answered (h : Inv s) {c : ℕ} {snapshotID : String}
    (he : s.enabled (.answered c snapshotID)) (h_not : ¬ s.Current c) :
    ¬ CarriesEpoch (s.next (.answered c snapshotID)) := by
  intro h_carries
  obtain ⟨tabID, frames, h_phase⟩ := exists_of_isReading he.1
  have h_tracked := h.captures c
  unfold State.Current at h_not
  rw [h_phase] at h_tracked h_not
  obtain ⟨epoch, h_epoch, h_tracks⟩ := h_tracked
  obtain rfl := epoch_eq h_epoch
  -- frames that are not current cannot be none
  have h_frames : ¬ frames.isEmpty = true := by
    intro h_empty
    obtain rfl := List.isEmpty_iff.mp h_empty
    exact h_not fun f h_f => absurd h_f List.not_mem_nil
  have h_next : s.next (.answered c snapshotID) = (s.storeSnapshot
      { snapshotID, tabID, documentEpoch := s.epoch tabID, frames }).tabGet c snapshotID tabID
        frames := (whenReading_eq h_phase _).trans (if_neg h_frames)
  rw [h_next] at h_carries
  exact h_tracks.not_fits h_not
    (h_carries.stored _ (List.mem_append_right _ (List.mem_singleton_self _)))

/-- A response with an outdated frame carries the wrong epoch. -/
theorem broken_complete (h : Inv s) {c : ℕ} (he : s.enabled (.complete c))
    (h_not : ¬ s.Current c) : ¬ CarriesEpoch (s.next (.complete c)) := by
  intro h_carries
  obtain ⟨response, h_phase⟩ := exists_of_isCompleting he
  have h_tracked := h.captures c
  unfold State.Current at h_not
  rw [h_phase] at h_tracked h_not
  have h_next : s.next (.complete c) = s.setPhase c (.settled (.ok response)) :=
    whenCompleting_eq h_phase _
  rw [h_next] at h_carries
  exact Tracks.not_fits h_tracked h_not (h_carries.response c response (Function.update_self ..))

end Inv

/-- **When captures carry the epoch of what they have read**: all states of a run are so if and
only if no capture stores a snapshot or answers after a commit of its tab that it has not seen. -/
theorem carriesEpoch_iff {es : List Event} (h : machine.Runs machine.init es) :
    (∀ es₁, es₁ <+: es → CarriesEpoch (machine.exec machine.init es₁)) ↔
      (machine.restrict Undisturbed).Runs machine.init es := by
  refine h.restrict_iff (I := Inv) Inv.init ?_ (fun s h_inv => h_inv.carriesEpoch) ?_
  · intro s e h_inv _ h_c
    exact h_inv.next h_c
  · intro s e h_inv he h_not
    cases e with
    | answered c snapshotID => exact h_inv.broken_answered he h_not
    | complete c => exact h_inv.broken_complete he h_not
    | _ => exact absurd trivial h_not

/-- A capture of the tab `tab_a`, in which the tab commits a document before the frame has
answered. -/
def interrupted : List Event :=
  [.ensure 1 "tab_a" false, .claim "tab_a" "ses_1" "lease_1" false,
    .capture 0 (.ofFields [("tabId", .str "tab_a"), ("sessionId", .str "ses_1"),
      ("leaseId", .str "lease_1")]),
    .read 0 0 "document_1" "local_1", .committed 1, .answered 0 "snap_1", .found 0 true,
    .complete 0]

/-- The run with the navigation in the middle is one of the worker. -/
theorem interrupted_runs : machine.Runs machine.init interrupted := by decide +kernel

/-- The equivalence, for the run with a navigation in the middle. -/
theorem carriesEpoch_iff_interrupted :
    (∀ es₁, es₁ <+: interrupted → CarriesEpoch (machine.exec machine.init es₁)) ↔
      (machine.restrict Undisturbed).Runs machine.init interrupted :=
  carriesEpoch_iff interrupted_runs

/-- The snapshot says that it is from the epoch two, and shows the document of the epoch one. -/
theorem not_carriesEpoch_interrupted :
    ¬ ∀ es : List Event, machine.Runs machine.init es →
      CarriesEpoch (machine.exec machine.init es) := by
  intro h
  have h_stored : ∀ snapshot ∈ (machine.exec machine.init interrupted).stored,
      ∀ f ∈ snapshot.frames, f.readIn = snapshot.documentEpoch :=
    (h interrupted interrupted_runs).stored
  exact absurd h_stored (by decide +kernel)

end BrowserControl.Extension.CaptureEpoch
