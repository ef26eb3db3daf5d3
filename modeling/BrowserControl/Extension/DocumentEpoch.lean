import BrowserControl.Extension.SecureInput

/-!
# Document epochs

A client names the document that it has seen by the `documentEpoch` of the tab, which counts the
documents that the main frame has committed. `#claimed` refuses a request with another epoch.

`DocumentEpoch.machine` runs the registry of the tabs through any number of service workers. Chrome
commits documents at any time, and tells the worker of it later, or nobody if the worker does not
listen. A worker that starts registers the tabs under the handles that were stored for them, with
the epoch one, so an epoch can come back (`not_identifies_restarted`).

It does not come back if the tabs that keep a handle over a restart have not committed a document
since they were registered, and if a request is accepted only when the worker has been told of all
commits of the tab (`identifies`).
-/

namespace BrowserControl.Extension.DocumentEpoch

open Encoding Transition NativeMessaging

/-! ### Service workers -/

/-- What the registry keeps in `chrome.storage.session`. -/
structure Stored where
  tabHandles : ℕ → Option String
  ownedTabs : ℕ → Bool

/-- `#persist` -/
def persisted (R : TabRegistry) : Stored where
  tabHandles := R.byChromeID
  ownedTabs n := (R.fromChromeID n).any (·.owned)

/-- The handle of a tab in a new worker; `fresh` are the random ones. -/
def Stored.handle (stored : Stored) (fresh : ℕ → String) (n : ℕ) : String :=
  (stored.tabHandles n).getD (fresh n)

/-- The tabs are registered. In a registry that has neither the tab nor the handle, `ensure` does
what `#register` does. -/
def registerTabs (stored : Stored) (fresh : ℕ → String) (tabs : List ℕ) : TabRegistry :=
  tabs.foldl (fun R n => R.ensure n (stored.handle fresh n) (stored.ownedTabs n)) .empty

/-- How far the start of the service is. -/
inductive Phase where
  /-- `initialize` waits for the storage. -/
  | reading
  /-- It waits for the tabs. -/
  | querying (stored : Stored)
  /-- The tabs are registered, but nothing listens to Chrome yet. -/
  | registered
  | running

/-- The storage is read. -/
def Phase.isReading : Phase → Bool
  | .reading => true
  | _ => false

/-- The tabs are asked for. -/
def Phase.isQuerying : Phase → Bool
  | .querying _ => true
  | _ => false

/-- The service runs. -/
def Phase.isRunning : Phase → Bool
  | .running => true
  | _ => false

/-- The tabs are registered, but the service does not listen yet. -/
def Phase.isRegistered : Phase → Bool
  | .registered => true
  | _ => false

/-- The service does not run before it listens. -/
theorem Phase.isRunning_of_isRegistered {phase : Phase} (h : phase.isRegistered = true) :
    phase.isRunning = false := by
  cases phase with
  | registered => rfl
  | reading => cases h
  | querying stored => cases h
  | running => cases h

/-- A request that was accepted, with the number of commits of its tab at this moment. -/
structure Accepted where
  tabID : String
  epoch : ℚ
  commits : ℕ
  deriving DecidableEq

/-- The service, its storage, and what the tabs have shown. -/
structure State where
  phase : Phase
  registry : TabRegistry
  stored : Stored
  /-- The values on their way to the storage. -/
  writes : List Stored
  /-- The documents that the main frame of a tab has committed. -/
  commits : ℕ → ℕ
  /-- The commits that Chrome has told the worker of, whether it listened or not. -/
  noticed : ℕ → ℕ
  accepted : List Accepted
  /-- The tabs of the handles of all workers. -/
  handles : String → Option ℕ
  /-- What was noticed of a tab when it got its handle, or when its worker began to listen. -/
  since : String → Option ℕ

/-- What Chrome reports, the steps of the start, and the requests. -/
inductive Event where
  /-- The storage is read. -/
  | read
  /-- Chrome answers with its tabs. -/
  | query (tabs : List ℕ) (fresh : ℕ → String)
  /-- `initialize` is over, and the service listens. -/
  | listen
  | ensure (chromeTabID : ℕ) (handle : String) (owned : Bool)
  | remove (chromeTabID : ℕ)
  | claim (tabID sessionID leaseID : String) (force : Bool)
  | release (tabID : String)
  | releaseAll
  /-- `#claimed` looks at a request. -/
  | request (params : Object)
  /-- The main frame of a tab commits a document. -/
  | commit (chromeTabID : ℕ)
  /-- `onCommitted` is delivered. -/
  | notice (chromeTabID : ℕ)
  /-- A value gets into the storage. -/
  | store
  /-- The worker is stopped; some of the values on their way are lost. -/
  | stop (kept : ℕ)

namespace State

variable (s : State)

/-- The registry is changed, and `#persist` is called. -/
def persist (R : TabRegistry) : State :=
  { s with registry := R, writes := s.writes ++ [persisted R] }

/-- The handles, with those of a registry. -/
def handlesWith (R : TabRegistry) (tabID : String) : Option ℕ :=
  ((R.objects tabID).map (·.chromeTabID)).or (s.handles tabID)

/-- What is accepted of a request with an epoch. -/
def accepts (params : Object) : Option Accepted :=
  match SecureInput.claimed s.registry params, params.get "expectedDocumentEpoch" with
  | .ok state, some (.num n) =>
    some
      { tabID := state.tabID
        epoch := numberValue n
        commits := s.commits state.chromeTabID }
  | _, _ => none

/-- The tabs that Chrome knows are registered, under their old handles where there are some. -/
def query (stored : Stored) (tabs : List ℕ) (fresh : ℕ → String) : State :=
  let R := registerTabs stored fresh tabs
  { s.persist R with phase := .registered, handles := s.handlesWith R }

/-- From here on navigations are noticed. -/
def listen : State :=
  { s with
    phase := .running
    since := fun tabID => ((s.registry.fromHandle tabID).toOption.map fun state =>
      s.noticed state.chromeTabID).or (s.since tabID) }

/-- A tab that is not registered gets its handle. -/
def enter (chromeTabID : ℕ) (handle : String) (owned : Bool) : State :=
  let R := s.registry.ensure chromeTabID handle owned
  { s.persist R with
    handles := s.handlesWith R
    since := Function.update s.since handle (some (s.noticed chromeTabID)) }

/-- `ensure`: a tab is registered if it is not yet. -/
def ensure (chromeTabID : ℕ) (handle : String) (owned : Bool) : State :=
  if (s.registry.byChromeID chromeTabID).isNone then s.enter chromeTabID handle owned
  else { s with registry := s.registry.ensure chromeTabID handle owned }

/-- `remove`: a tab goes, and the storage is written. -/
def remove (chromeTabID : ℕ) : State :=
  if (s.registry.byChromeID chromeTabID).isNone then s
  else s.persist (s.registry.remove chromeTabID)

/-- `onCommitted` for the main frame. -/
def notice (chromeTabID : ℕ) : State :=
  { s with
    noticed := Function.update s.noticed chromeTabID (s.noticed chromeTabID + 1)
    registry :=
      if s.phase.isRunning then s.registry.noteNavigation chromeTabID else s.registry }

/-- One step of the service. -/
def next (s : State) : Event → State
  | .read => { s with phase := .querying s.stored }
  | .query tabs fresh =>
    match s.phase with
    | .querying stored => s.query stored tabs fresh
    | _ => s
  | .listen => s.listen
  | .ensure chromeTabID handle owned => s.ensure chromeTabID handle owned
  | .remove chromeTabID => s.remove chromeTabID
  -- Each change of the registry queues a write of it.
  | .claim tabID sessionID leaseID force =>
    match s.registry.claim tabID sessionID leaseID force with
    | .ok (R, _) => s.persist R
    | .error _ => s
  | .release tabID =>
    match s.registry.release tabID with
    | .ok R => s.persist R
    | .error _ => s
  | .releaseAll => s.persist s.registry.releaseAll.1
  | .request params => { s with accepted := (s.accepts params).toList ++ s.accepted }
  | .commit chromeTabID =>
    { s with commits := Function.update s.commits chromeTabID (s.commits chromeTabID + 1) }
  | .notice chromeTabID => s.notice chromeTabID
  -- The writes reach the storage in their order.
  | .store =>
    match s.writes with
    | [] => s
    | w :: ws => { s with stored := w, writes := ws }
  -- The worker is stopped: `kept` of the queued writes still go through.
  | .stop kept =>
    { s with phase := .reading, registry := .empty, writes := s.writes.take kept }

/-- A random handle is never drawn twice. -/
def enabled (s : State) : Event → Prop
  | .read => s.phase.isReading = true
  | .query tabs fresh =>
    s.phase.isQuerying = true ∧ tabs.Nodup ∧ (tabs.map fresh).Nodup ∧
      ∀ n ∈ tabs, s.handles (fresh n) = none
  | .listen => s.phase.isRegistered = true
  | .ensure _ handle _ => s.phase.isRunning = true ∧ s.handles handle = none
  | .remove _ | .claim _ _ _ _ | .release _ | .releaseAll | .request _ => s.phase.isRunning = true
  | .notice chromeTabID => s.noticed chromeTabID < s.commits chromeTabID
  | .store => ¬ s.writes.isEmpty = true
  | .commit _ | .stop _ => True

instance decidableEnabled : ∀ (s : State) (e : Event), Decidable (s.enabled e)
  | s, .read => inferInstanceAs (Decidable (s.phase.isReading = true))
  | s, .query tabs fresh =>
    inferInstanceAs (Decidable (s.phase.isQuerying = true ∧ tabs.Nodup ∧ (tabs.map fresh).Nodup ∧
      ∀ n ∈ tabs, s.handles (fresh n) = none))
  | s, .listen => inferInstanceAs (Decidable (s.phase.isRegistered = true))
  | s, .ensure _ handle _ =>
    inferInstanceAs (Decidable (s.phase.isRunning = true ∧ s.handles handle = none))
  | s, .remove _ | s, .claim _ _ _ _ | s, .release _ | s, .releaseAll | s, .request _ =>
    inferInstanceAs (Decidable (s.phase.isRunning = true))
  | s, .notice chromeTabID =>
    inferInstanceAs (Decidable (s.noticed chromeTabID < s.commits chromeTabID))
  | s, .store => inferInstanceAs (Decidable (¬ s.writes.isEmpty = true))
  | _, .commit _ | _, .stop _ => inferInstanceAs (Decidable True)

end State

/-- The service from its installation on. -/
def machine : Machine State Event where
  init :=
    { phase := .reading
      registry := .empty
      stored := ⟨fun _ => none, fun _ => false⟩
      writes := []
      commits := fun _ => 0
      noticed := fun _ => 0
      accepted := []
      handles := fun _ => none
      since := fun _ => none }
  enabled := State.enabled
  next := State.next

instance decidableMachine (s : State) (e : Event) : Decidable (machine.enabled s e) :=
  State.decidableEnabled s e

/-- Two requests that were accepted with the same epoch have seen the same document. -/
def Identifies (s : State) : Prop :=
  ∀ a ∈ s.accepted, ∀ b ∈ s.accepted, a.tabID = b.tabID → a.epoch = b.epoch → a.commits = b.commits

/-- The tab that a request names. -/
def State.target (s : State) (params : Object) : Option TabState :=
  (optionalString params "tabId").bind fun tabID => (s.registry.fromHandle tabID).toOption

/-- The condition: a worker that begins to listen has kept the handles only of tabs that have not
committed a document since they were registered, as far as it could notice, and a request comes
when all commits of its tab were noticed. -/
def Kept (s : State) : Event → Prop
  | .listen =>
    ∀ state ∈ s.registry.all, ∀ k ∈ s.since state.tabID, s.noticed state.chromeTabID = k
  | .request params =>
    ∀ state ∈ s.target params, s.noticed state.chromeTabID = s.commits state.chromeTabID
  | _ => True

instance decidableKept : ∀ (s : State) (e : Event), Decidable (Kept s e)
  | s, .listen =>
    inferInstanceAs (Decidable (∀ state ∈ s.registry.all, ∀ k ∈ s.since state.tabID,
      s.noticed state.chromeTabID = k))
  | s, .request params =>
    inferInstanceAs (Decidable (∀ state ∈ s.target params,
      s.noticed state.chromeTabID = s.commits state.chromeTabID))
  | _, .read | _, .query _ _ | _, .ensure _ _ _ | _, .remove _ | _, .claim _ _ _ _ | _, .release _
  | _, .releaseAll | _, .commit _ | _, .notice _ | _, .store | _, .stop _ =>
    inferInstanceAs (Decidable True)

/-! ### What the methods of the registry keep -/

/-- Every tab of `R'` is one of `R`, under the same handle and with the same epoch. -/
structure Keeps (R R' : TabRegistry) : Prop where
  objects : ∀ {tabID : String} {state' : TabState}, R'.objects tabID = some state' →
    ∃ state, R.objects tabID = some state ∧ state'.chromeTabID = state.chromeTabID ∧
      state'.documentEpoch = state.documentEpoch
  index : ∀ {n : ℕ} {tabID : String}, R'.byChromeID n = some tabID → R.byChromeID n = some tabID

namespace Keeps

variable {R R' : TabRegistry}

/-- A tab that is still there had its handle and its epoch before. -/
theorem fromChromeID (h : Keeps R R') {n : ℕ} {state' : TabState}
    (h_state : R'.fromChromeID n = some state') :
    ∃ state, R.fromChromeID n = some state ∧ state'.tabID = state.tabID ∧
      state'.documentEpoch = state.documentEpoch := by
  obtain ⟨h_index, h_object⟩ := TabRegistry.fromChromeID_eq_some.mp h_state
  obtain ⟨state, h_old, -, h_epoch⟩ := h.objects h_object
  have h_id : state.tabID = state'.tabID := R.named h_old
  refine ⟨state, TabRegistry.fromChromeID_eq_some.mpr ?_, h_id.symm, h_epoch⟩
  rw [h_id]
  exact ⟨h.index h_index, h_old⟩

/-- A handle still means the same tab. -/
theorem tab (h : Keeps R R') {tabID : String} {state' : TabState}
    (h_object : R'.objects tabID = some state') :
    ∃ state, R.objects tabID = some state ∧ state'.chromeTabID = state.chromeTabID := by
  obtain ⟨state, h_old, h_chrome, -⟩ := h.objects h_object
  exact ⟨state, h_old, h_chrome⟩

/-- A change that keeps the epochs of the tabs. -/
theorem modify {p : String → Bool} {f : TabState → TabState}
    {h_id : ∀ state, (f state).tabID = state.tabID}
    {h_chrome : ∀ state, (f state).chromeTabID = state.chromeTabID}
    (h_epoch : ∀ state, (f state).documentEpoch = state.documentEpoch) :
    Keeps R (R.modify p f h_id h_chrome) where
  objects := by
    intro tabID state' h
    obtain ⟨state, h_old, rfl⟩ := TabRegistry.objects_modify h
    refine ⟨state, h_old, ?_⟩
    split_ifs
    · exact ⟨h_chrome state, h_epoch state⟩
    · exact ⟨rfl, rfl⟩
  index h := h

/-- Claims change nothing of it. -/
theorem setClaim (p : String → Bool) (claim : Option Claim) : Keeps R (R.setClaim p claim) :=
  modify fun _ => rfl

/-- A tab that goes changes nothing of the others. -/
theorem remove (chromeTabID : ℕ) : Keeps R (R.remove chromeTabID) where
  objects := by
    intro tabID state' h
    rw [TabRegistry.objects_remove] at h
    exact ⟨state', h, rfl, rfl⟩
  index := by
    intro n tabID h
    rw [TabRegistry.byChromeID_remove] at h
    split_ifs at h
    exact h

/-- A tab that is registered may become an owned one. -/
theorem ensure {chromeTabID : ℕ} (h_tab : (R.byChromeID chromeTabID).isNone = false)
    (handle : String) (owned : Bool) : Keeps R (R.ensure chromeTabID handle owned) where
  objects := by
    intro tabID state' h
    -- The tab is known, so no object is made for it.
    obtain ⟨state, h_old, h_chrome, h_epoch⟩ | ⟨-, -, h_none, -⟩ := TabRegistry.objects_ensure h
    · exact ⟨state, h_old, h_chrome, h_epoch⟩
    · rw [h_none] at h_tab
      cases h_tab
  index := by
    intro n tabID h
    obtain h_same | ⟨rfl, h_none, -, -⟩ :=
      TabRegistry.byChromeID_ensure (R := R) chromeTabID handle owned n
    · rw [← h_same]
      exact h
    · rw [h_none] at h_tab
      cases h_tab

end Keeps

/-! ### Handles -/

/-- The stored handles are those of the tabs. -/
def Stored.Fits (stored : Stored) (handles : String → Option ℕ) : Prop :=
  ∀ n tabID, stored.tabHandles n = some tabID → handles tabID = some n

/-- A handle is used for the tab that it was made for. -/
structure Named (s : State) : Prop where
  objects : ∀ {tabID : String} {state : TabState}, s.registry.objects tabID = some state →
    s.handles tabID = some state.chromeTabID
  stored : s.stored.Fits s.handles
  writes : ∀ w ∈ s.writes, w.Fits s.handles
  read : ∀ {stored : Stored}, s.phase = .querying stored → stored.Fits s.handles
  since : ∀ {tabID : String} {k : ℕ}, s.since tabID = some k → s.handles tabID ≠ none

/-- What is persisted of a registry whose objects have their handles. -/
theorem persisted_fits {R : TabRegistry} {handles : String → Option ℕ}
    (h : ∀ {tabID : String} {state : TabState}, R.objects tabID = some state →
      handles tabID = some state.chromeTabID) : (persisted R).Fits handles := by
  intro n tabID h_index
  obtain ⟨-, state, h_object, rfl⟩ := R.indexed h_index
  exact h h_object

/-- The registry does not use a handle for another tab. -/
def State.Agrees (s : State) (R : TabRegistry) : Prop :=
  ∀ {tabID : String} {state : TabState} {n : ℕ}, R.objects tabID = some state →
    s.handles tabID = some n → state.chromeTabID = n

section HandlesWith

variable {s : State} {R : TabRegistry} {tabID : String}

/-- A tab in the registry has its handle. -/
theorem handlesWith_of_object {state : TabState} (h : R.objects tabID = some state) :
    s.handlesWith R tabID = some state.chromeTabID := by
  unfold State.handlesWith
  rw [h]
  rfl

/-- A handle that was given keeps its tab. -/
theorem handlesWith_of_some (h_agrees : s.Agrees R) {n : ℕ} (h : s.handles tabID = some n) :
    s.handlesWith R tabID = some n := by
  cases h_object : R.objects tabID with
  | none =>
    unfold State.handlesWith
    rw [h_object]
    exact h
  | some state => rw [handlesWith_of_object h_object, h_agrees h_object h]

/-- What is stored fits the handles when some are added. -/
theorem Stored.Fits.handlesWith {stored : Stored} (h : stored.Fits s.handles)
    (h_agrees : s.Agrees R) : stored.Fits (s.handlesWith R) :=
  fun n tabID h_handle => handlesWith_of_some h_agrees (h n tabID h_handle)

end HandlesWith

namespace Named

variable {s : State}

/-- The registry changes without new handles. -/
theorem registry (h : Named s) {R : TabRegistry}
    (h_objects : ∀ {tabID : String} {state' : TabState}, R.objects tabID = some state' →
      ∃ state, s.registry.objects tabID = some state ∧ state'.chromeTabID = state.chromeTabID) :
    Named { s with registry := R } where
  objects h_object := by
    obtain ⟨state, h_old, h_chrome⟩ := h_objects h_object
    rw [h_chrome]
    exact h.objects h_old
  stored := h.stored
  writes := h.writes
  read := h.read
  since := h.since

/-- The registry changes and is written. -/
theorem persist (h : Named s) {R : TabRegistry} (h_keeps : Keeps s.registry R) :
    Named (s.persist R) where
  objects := (h.registry h_keeps.tab).objects
  stored := h.stored
  writes := by
    intro w h_w
    obtain h_old | h_new := List.mem_append.mp h_w
    · exact h.writes w h_old
    · obtain rfl := List.mem_singleton.mp h_new
      exact persisted_fits (h.registry h_keeps.tab).objects
  read := h.read
  since := h.since

/-- The objects of a registry get their handles. -/
theorem withHandles (h : Named s) {R : TabRegistry} (h_agrees : s.Agrees R) :
    Named { s.persist R with handles := s.handlesWith R } where
  objects := handlesWith_of_object
  stored := h.stored.handlesWith h_agrees
  writes := by
    intro w h_w
    -- The new write stores the handles as they are now.
    obtain h_old | h_new := List.mem_append.mp h_w
    · exact (h.writes w h_old).handlesWith h_agrees
    · obtain rfl := List.mem_singleton.mp h_new
      exact persisted_fits handlesWith_of_object
  read h_phase := (h.read h_phase).handlesWith h_agrees
  since := by
    intro tabID k h_since
    obtain ⟨n, h_n⟩ := Option.ne_none_iff_exists'.mp (h.since h_since)
    change s.handlesWith R tabID ≠ none
    rw [handlesWith_of_some h_agrees h_n]
    exact Option.some_ne_none n

end Named

/-- The handle of a tab that is not registered is new. -/
theorem Named.agrees_ensure {s : State} (h : Named s) {handle : String}
    (h_new : s.handles handle = none) (chromeTabID : ℕ) (owned : Bool) :
    s.Agrees (s.registry.ensure chromeTabID handle owned) := by
  intro tabID state n h_object h_n
  obtain ⟨old, h_old, h_chrome, -⟩ | ⟨rfl, -⟩ := TabRegistry.objects_ensure h_object
  · rw [h.objects h_old] at h_n
    rw [h_chrome, Option.some_inj.mp h_n]
  · rw [h_new] at h_n
    cases h_n

/-- The objects that a new worker makes. -/
theorem objects_registerTabs {stored : Stored} {fresh : ℕ → String} {tabs : List ℕ}
    {tabID : String} {state : TabState}
    (h : (registerTabs stored fresh tabs).objects tabID = some state) :
    tabID = stored.handle fresh state.chromeTabID ∧ state.chromeTabID ∈ tabs ∧
      state.documentEpoch = 1 := by
  revert tabID state
  unfold registerTabs
  -- Along the tabs of the browser, one registration after the other.
  refine List.foldlRecOn (motive := fun R : TabRegistry => ∀ {tabID : String} {state : TabState},
    R.objects tabID = some state → tabID = stored.handle fresh state.chromeTabID ∧
      state.chromeTabID ∈ tabs ∧ state.documentEpoch = 1) tabs _ ?_ ?_
  · intro tabID state h
    cases h
  · intro R h_all n h_n tabID state h
    obtain ⟨old, h_old, h_chrome, h_epoch⟩ | ⟨rfl, -, -, h_chrome, h_epoch⟩ :=
      TabRegistry.objects_ensure h
    · rw [h_chrome, h_epoch]
      exact h_all h_old
    · rw [h_chrome]
      exact ⟨rfl, h_n, h_epoch⟩

/-- Tabs registered from the storage agree with the handles there were. -/
theorem agrees_registerTabs {s : State} {stored : Stored} (h : stored.Fits s.handles)
    {fresh : ℕ → String} {tabs : List ℕ} (h_fresh : ∀ n ∈ tabs, s.handles (fresh n) = none) :
    s.Agrees (registerTabs stored fresh tabs) := by
  intro tabID state n h_object h_n
  obtain ⟨h_handle, h_mem, -⟩ := objects_registerTabs h_object
  unfold Stored.handle at h_handle
  cases h_stored : stored.tabHandles state.chromeTabID with
  | none =>
    rw [h_stored, Option.getD_none] at h_handle
    rw [h_handle, h_fresh _ h_mem] at h_n
    cases h_n
  | some handle =>
    rw [h_stored, Option.getD_some] at h_handle
    subst h_handle
    rw [h _ _ h_stored] at h_n
    exact Option.some_inj.mp h_n

/-! ### Epochs and commits -/

/-- What is accepted is the epoch of the tab. -/
theorem accepts_eq_some {s : State} {params : Object} {a : Accepted}
    (h : s.accepts params = some a) :
    ∃ tabID state, optionalString params "tabId" = some tabID ∧
      s.registry.fromHandle tabID = .ok state ∧
        a = ⟨state.tabID, state.documentEpoch, s.commits state.chromeTabID⟩ := by
  unfold State.accepts at h
  split at h
  case h_2 => cases h
  case h_1 state n h_claimed h_epoch =>
    obtain ⟨tabID, h_tab, h_claimed⟩ := of_bind_ok h_claimed
    obtain ⟨state', h_asserted, h_claimed⟩ := of_bind_ok h_claimed
    rw [h_epoch] at h_claimed
    dsimp only at h_claimed
    split_ifs at h_claimed with h_same
    obtain rfl := Except.ok.inj h_claimed
    refine ⟨tabID, state', optionalString_of_requiredString h_tab,
      (TabRegistry.assertClaimed_ok h_asserted).1, ?_⟩
    rw [← not_not.mp h_same]
    exact (Option.some_inj.mp h).symm

/-- The epochs count the commits that were noticed since the tabs got their handles. -/
structure Counts (s : State) : Prop where
  first : s.phase.isRegistered = true → ∀ {n : ℕ} {state : TabState},
    s.registry.fromChromeID n = some state → state.documentEpoch = 1
  running : s.phase.isRunning = true → ∀ {n : ℕ} {state : TabState},
    s.registry.fromChromeID n = some state →
      ∃ k, s.since state.tabID = some k ∧ k + state.documentEpoch = s.noticed n + 1
  accepted : ∀ a ∈ s.accepted, ∃ k, s.since a.tabID = some k ∧ (a.commits : ℚ) + 1 = k + a.epoch

/-- So an epoch stands for a number of commits. -/
theorem Counts.sameCommits {s : State} (h : Counts s) : Identifies s := by
  intro a h_a b h_b h_tab h_epoch
  obtain ⟨k, h_k, h_commits⟩ := h.accepted a h_a
  obtain ⟨k', h_k', h_commits'⟩ := h.accepted b h_b
  rw [h_tab, h_k'] at h_k
  obtain rfl := Option.some_inj.mp h_k
  rw [h_epoch, ← h_commits'] at h_commits
  exact_mod_cast add_right_cancel h_commits

namespace Counts

variable {s : State}

/-- The registry changes and keeps the epochs. -/
theorem registry (h : Counts s) {R : TabRegistry} (h_keeps : Keeps s.registry R) :
    Counts { s with registry := R } where
  first h_phase n state h_state := by
    obtain ⟨old, h_old, -, h_epoch⟩ := h_keeps.fromChromeID h_state
    rw [h_epoch]
    exact h.first h_phase h_old
  running h_phase n state h_state := by
    obtain ⟨old, h_old, h_id, h_epoch⟩ := h_keeps.fromChromeID h_state
    rw [h_id, h_epoch]
    exact h.running h_phase h_old
  accepted := h.accepted

/-- The same when it is written. -/
theorem persist (h : Counts s) {R : TabRegistry} (h_keeps : Keeps s.registry R) :
    Counts (s.persist R) :=
  ⟨(h.registry h_keeps).first, (h.registry h_keeps).running, h.accepted⟩

/-- A new worker starts to count with one. -/
theorem query (h : Counts s) (stored : Stored) (tabs : List ℕ) (fresh : ℕ → String) :
    Counts (s.query stored tabs fresh) where
  first h_phase n state h_state :=
    (objects_registerTabs (TabRegistry.fromChromeID_eq_some.mp h_state).2).2.2
  running h_phase := by cases h_phase
  accepted := h.accepted

/-- The service begins to listen, with no navigation missed. -/
theorem listen (h : Counts s) (h_phase : s.phase.isRegistered = true) (h_kept : Kept s .listen) :
    Counts s.listen where
  first h_phase := by cases h_phase
  running _ n state h_state := by
    have h_handle : s.registry.fromHandle state.tabID = .ok state :=
      TabRegistry.fromHandle_of_mem_all (TabRegistry.mem_all_of_fromChromeID h_state)
    refine ⟨s.noticed n, ?_, ?_⟩
    · change ((s.registry.fromHandle state.tabID).toOption.map _).or _ = _
      rw [h_handle]
      exact congrArg (some <| s.noticed ·) (TabRegistry.chromeTabID_of_fromChromeID h_state)
    · rw [h.first h_phase h_state]
      rfl
  accepted a h_a := by
    obtain ⟨k, h_k, h_commits⟩ := h.accepted a h_a
    refine ⟨k, ?_, h_commits⟩
    change ((s.registry.fromHandle a.tabID).toOption.map _).or _ = _
    cases h_handle : s.registry.fromHandle a.tabID with
    | error e => exact h_k
    | ok state =>
      -- the tab has kept its handle, so the condition says that it has not committed since
      have h_mem : state ∈ s.registry.all :=
        TabRegistry.mem_all_of_fromChromeID (TabRegistry.fromChromeID_of_fromHandle h_handle)
      have h_id : state.tabID = a.tabID :=
        s.registry.named (TabRegistry.fromHandle_ok h_handle).2
      exact congrArg some (h_kept state h_mem k (by rw [h_id, h_k]; rfl))

/-- A new tab begins to be counted. -/
theorem enter (h : Counts s) (h_named : Named s) (h_phase : s.phase.isRunning = true)
    (chromeTabID : ℕ) {handle : String} (h_new : s.handles handle = none) (owned : Bool) :
    Counts (s.enter chromeTabID handle owned) where
  -- the worker runs, so nothing is said about the first read
  first h_first := by
    have h_not : s.phase.isRunning = false := Phase.isRunning_of_isRegistered h_first
    rw [h_phase] at h_not
    cases h_not
  -- a tab is the one of the new object, or it was there before
  running _ n state h_state := by
    obtain ⟨h_index, h_object⟩ := TabRegistry.fromChromeID_eq_some.mp h_state
    change ∃ k, Function.update s.since handle (some (s.noticed chromeTabID)) state.tabID =
      some k ∧ _
    obtain ⟨old, h_old, h_chrome, h_epoch⟩ | ⟨h_id, -, -, h_chrome, h_epoch⟩ :=
      TabRegistry.objects_ensure h_object
    · -- the object was there, and so was its tab
      have h_ne : state.tabID ≠ handle := by
        intro h_eq
        rw [h_eq] at h_old
        rw [h_named.objects h_old] at h_new
        cases h_new
      have h_old_id : old.tabID = state.tabID := s.registry.named h_old
      have h_old_index : s.registry.byChromeID n = some state.tabID := by
        obtain h_same | ⟨-, -, -, h_handle⟩ := TabRegistry.byChromeID_ensure (R := s.registry)
          chromeTabID handle owned n
        · rw [← h_same]
          exact h_index
        · refine absurd ?_ h_ne
          exact Option.some_inj.mp (h_index.symm.trans h_handle)
      rw [Function.update_of_ne h_ne, h_epoch, ← h_old_id]
      refine h.running h_phase (TabRegistry.fromChromeID_eq_some.mpr ?_)
      rw [h_old_id]
      exact ⟨h_old_index, h_old⟩
    · have h_n : n = chromeTabID :=
        (TabRegistry.chromeTabID_of_fromChromeID h_state).symm.trans h_chrome
      rw [h_id, Function.update_self, h_epoch, h_n]
      exact ⟨_, rfl, rfl⟩
  -- The handle is new, so no accepted request names it.
  accepted a h_a := by
    obtain ⟨k, h_k, h_commits⟩ := h.accepted a h_a
    refine ⟨k, ?_, h_commits⟩
    have h_ne : a.tabID ≠ handle := by
      intro h_eq
      exact h_named.since h_k (h_eq ▸ h_new)
    exact (Function.update_of_ne h_ne ..).trans h_k

/-- A navigation is counted for the tab that shows it. -/
theorem notice (h : Counts s) (chromeTabID : ℕ) : Counts (s.notice chromeTabID) where
  first h_phase n state h_state := by
    have h_running : s.phase.isRunning = false := Phase.isRunning_of_isRegistered h_phase
    change (if s.phase.isRunning then s.registry.noteNavigation chromeTabID
      else s.registry).fromChromeID n = some state at h_state
    rw [h_running, if_neg Bool.false_ne_true] at h_state
    exact h.first h_phase h_state
  -- a noticed commit raises the epoch of its tab by one, if that tab is known
  running h_phase n state h_state := by
    change s.phase.isRunning = true at h_phase
    change (if s.phase.isRunning then s.registry.noteNavigation chromeTabID
      else s.registry).fromChromeID n = some state at h_state
    rw [h_phase, if_pos rfl] at h_state
    obtain ⟨old, h_old, h_id, h_epoch⟩ := TabRegistry.fromChromeID_noteNavigation h_state
    obtain ⟨k, h_k, h_count⟩ := h.running h_phase h_old
    refine ⟨k, by rw [h_id]; exact h_k, ?_⟩
    change k + state.documentEpoch = Function.update s.noticed chromeTabID _ n + 1
    by_cases h_eq : n = chromeTabID
    · subst h_eq
      rw [Function.update_self, h_epoch, if_pos rfl, ← h_count]
      rfl
    · rw [Function.update_of_ne h_eq, h_epoch, if_neg h_eq, h_count]
  accepted := h.accepted

/-- A request that is accepted has a document of now. -/
theorem request (h : Counts s) (h_phase : s.phase.isRunning = true) {params : Object}
    (h_kept : Kept s (.request params)) :
    Counts { s with accepted := (s.accepts params).toList ++ s.accepted } where
  first := h.first
  running := h.running
  -- the condition: all commits of the tab were noticed
  accepted a h_a := by
    obtain h_new | h_old := List.mem_append.mp h_a
    · obtain ⟨tabID, state, h_tab, h_handle, rfl⟩ := accepts_eq_some (Option.mem_toList.mp h_new)
      have h_state := TabRegistry.fromChromeID_of_fromHandle h_handle
      obtain ⟨k, h_k, h_count⟩ := h.running h_phase h_state
      have h_commits : s.noticed state.chromeTabID = s.commits state.chromeTabID := by
        refine h_kept state ?_
        unfold State.target
        rw [h_tab, Option.bind_some, h_handle]
        rfl
      rw [h_commits] at h_count
      refine ⟨k, h_k, ?_⟩
      change (s.commits state.chromeTabID : ℚ) + 1 = k + (state.documentEpoch : ℚ)
      exact_mod_cast h_count.symm
    · exact h.accepted a h_old

end Counts

/-! ### Runs -/

/-- The start registers every tab once. -/
theorem Named.query {s : State} (h : Named s) {stored : Stored}
    (h_phase : s.phase = .querying stored)
    {tabs : List ℕ} {fresh : ℕ → String} (h_fresh : ∀ n ∈ tabs, s.handles (fresh n) = none) :
    Named (s.query stored tabs fresh) :=
  let h_new := h.withHandles (agrees_registerTabs (h.read h_phase) h_fresh)
  { h_new with read := fun h_read => by cases h_read }

/-- To listen changes no handle. -/
theorem Named.listen {s : State} (h : Named s) : Named s.listen where
  objects := h.objects
  stored := h.stored
  writes := h.writes
  read h_read := by cases h_read
  since := by
    intro tabID k h_since
    change ((s.registry.fromHandle tabID).toOption.map _).or _ = _ at h_since
    change s.handles tabID ≠ none
    -- A tab the registry knows has a handle already.
    cases h_handle : s.registry.fromHandle tabID with
    | error e =>
      rw [h_handle] at h_since
      exact h.since h_since
    | ok state =>
      rw [h.objects (TabRegistry.fromHandle_ok h_handle).2]
      exact Option.some_ne_none _

/-- A new tab has a new handle. -/
theorem Named.enter {s : State} (h : Named s) {chromeTabID : ℕ}
    (h_tab : s.registry.byChromeID chromeTabID = none) {handle : String}
    (h_new : s.handles handle = none) (owned : Bool) : Named (s.enter chromeTabID handle owned) :=
  let h_named := h.withHandles (h.agrees_ensure h_new chromeTabID owned)
  { h_named with
    since := by
      intro tabID k h_since
      by_cases h_eq : tabID = handle
      · -- the object of the handle has just been made
        have h_handle : s.registry.objects handle = none := by
          by_contra h_some
          obtain ⟨state, h_state⟩ := Option.ne_none_iff_exists'.mp h_some
          rw [h.objects h_state] at h_new
          cases h_new
        have h_object := TabRegistry.ensure_of_none h_tab h_handle owned
        change s.handlesWith (s.registry.ensure chromeTabID handle owned) tabID ≠ none
        rw [h_object, h_eq, handlesWith_of_object (Function.update_self ..)]
        exact Option.some_ne_none _
      · exact h_named.since ((Function.update_of_ne h_eq ..).symm.trans h_since) }

/-- A navigation changes no handle. -/
theorem Named.notice {s : State} (h : Named s) (chromeTabID : ℕ) :
    Named (s.notice chromeTabID) where
  objects h_object := by
    change (if s.phase.isRunning then s.registry.noteNavigation chromeTabID
      else s.registry).objects _ = _ at h_object
    split_ifs at h_object
    · exact (h.registry TabRegistry.objects_noteNavigation).objects h_object
    · exact h.objects h_object
  stored := h.stored
  writes := h.writes
  read := h.read
  since := h.since

/-- Both invariants. -/
structure Inv (s : State) : Prop where
  named : Named s
  counts : Counts s

theorem Inv.init : Inv machine.init where
  named :=
    { objects := fun h => by cases h
      stored := fun _ _ h => by cases h
      writes := fun _ h => absurd h List.not_mem_nil
      read := fun h => by cases h
      since := fun h => by cases h }
  counts :=
    { first := fun h => by cases h
      running := fun h => by cases h
      accepted := fun _ h => absurd h List.not_mem_nil }

/-- The registry changes as the claims do. -/
theorem Inv.persist {s : State} (h : Inv s) {R : TabRegistry} (h_keeps : Keeps s.registry R) :
    Inv (s.persist R) := ⟨h.named.persist h_keeps, h.counts.persist h_keeps⟩

/-- **A step that meets the condition keeps the invariants.** -/
theorem Inv.next {s : State} (h : Inv s) {e : Event} (he : s.enabled e) (h_kept : Kept s e) :
    Inv (s.next e) := by
  cases e with
  -- the start of the worker: what was stored is read, then the tabs are asked for
  | read =>
    refine ⟨⟨h.named.objects, h.named.stored, h.named.writes, ?_, h.named.since⟩,
      ⟨fun h_phase => (by cases h_phase), fun h_phase => (by cases h_phase), h.counts.accepted⟩⟩
    intro stored h_read
    obtain rfl := Phase.querying.inj h_read
    exact h.named.stored
  | query tabs fresh =>
    unfold State.next
    cases h_phase : s.phase with
    | querying stored =>
      exact ⟨h.named.query h_phase he.2.2.2, h.counts.query stored tabs fresh⟩
    | reading => exact h
    | registered => exact h
    | running => exact h
  -- here the condition is used: the tabs that were kept have committed nothing since
  | listen => exact ⟨h.named.listen, h.counts.listen he h_kept⟩
  -- the registry while the worker runs: an object is made only for a tab without one
  | ensure chromeTabID handle owned =>
    change Inv (s.ensure chromeTabID handle owned)
    unfold State.ensure
    split_ifs with h_tab
    · have h_none := Option.isNone_iff_eq_none.mp h_tab
      exact ⟨h.named.enter h_none he.2 owned, h.counts.enter h.named he.1 chromeTabID he.2 owned⟩
    · have h_keeps := Keeps.ensure (Bool.eq_false_iff.mpr h_tab) handle owned
      exact ⟨h.named.registry h_keeps.tab, h.counts.registry h_keeps⟩
  | remove chromeTabID =>
    change Inv (s.remove chromeTabID)
    unfold State.remove
    split_ifs
    · exact h
    · exact h.persist (.remove chromeTabID)
  | claim tabID sessionID leaseID force =>
    unfold State.next
    cases h_claim : s.registry.claim tabID sessionID leaseID force with
    | error e =>
      simp only [h_claim]
      exact h
    | ok claimed =>
      obtain ⟨R, state⟩ := claimed
      obtain ⟨-, rfl⟩ := TabRegistry.claim_ok h_claim
      simp only [h_claim]
      exact h.persist (.setClaim ..)
  | release tabID =>
    unfold State.next
    cases h_release : s.registry.release tabID with
    | error e =>
      simp only [h_release]
      exact h
    | ok R =>
      obtain ⟨-, -, rfl⟩ := TabRegistry.release_ok h_release
      simp only [h_release]
      exact h.persist (.setClaim ..)
  | releaseAll => exact h.persist (.setClaim ..)
  -- an accepted request fixes the epoch that it was compared with
  | request params =>
    exact ⟨⟨h.named.objects, h.named.stored, h.named.writes, h.named.read, h.named.since⟩,
      h.counts.request he h_kept⟩
  | commit chromeTabID =>
    exact ⟨⟨h.named.objects, h.named.stored, h.named.writes, h.named.read, h.named.since⟩,
      ⟨h.counts.first, h.counts.running, h.counts.accepted⟩⟩
  | notice chromeTabID => exact ⟨h.named.notice chromeTabID, h.counts.notice chromeTabID⟩
  -- the oldest write reaches the storage
  | store =>
    unfold State.next
    cases h_writes : s.writes with
    | nil => exact h
    | cons w ws =>
      have h_fits := h.named.writes
      rw [h_writes] at h_fits
      exact ⟨⟨h.named.objects, h_fits w (List.mem_cons_self ..),
          fun w' h_w' => h_fits w' (List.mem_cons_of_mem _ h_w'), h.named.read, h.named.since⟩,
        ⟨h.counts.first, h.counts.running, h.counts.accepted⟩⟩
  -- The worker ends: the objects are lost, and of the writes a beginning is kept.
  | stop kept =>
    refine ⟨⟨fun h_object => (by cases h_object), h.named.stored, ?_,
      fun h_read => (by cases h_read),
      h.named.since⟩, ⟨fun h_phase => (by cases h_phase), fun h_phase => (by cases h_phase),
        h.counts.accepted⟩⟩
    intro w h_w
    exact h.named.writes w (List.mem_of_mem_take h_w)

/-- **Epochs identify documents**: in every run whose steps meet the condition, two requests that
were accepted for a tab with the same epoch have seen the same document. -/
theorem identifies {es : List Event} (h : (machine.restrict Kept).Runs machine.init es) :
    Identifies (machine.exec machine.init es) := by
  have h_inv : Inv (machine.exec machine.init es) := by
    refine Machine.Reachable.induction (M := machine.restrict Kept) Inv.init ?_ h.reachable
    intro s e _ h_inv he
    exact h_inv.next he.1 he.2
  exact h_inv.counts.sameCommits

/-! ### A restart -/

/-- The parameters of a request for the tab `tab_a` in the epoch one. -/
def inFirstEpoch : Object :=
  .ofFields [("tabId", .str "tab_a"), ("sessionId", .str "ses_1"), ("leaseId", .str "lease_1"),
    ("expectedDocumentEpoch", number 1)]

/-- A worker starts and finds the tab `1`, which is claimed; a request for it is accepted. -/
def start : List Event :=
  [.read, .query [1] fun _ => "tab_a", .listen, .claim "tab_a" "ses_1" "lease_1" false,
    .request inFirstEpoch]

/-- The worker is stopped, and the next one restores the handle of the tab. -/
def restart : List Event :=
  [.store, .store, .stop 0, .read, .query [1] fun _ => "tab_b", .listen,
    .claim "tab_a" "ses_1" "lease_1" false, .request inFirstEpoch]

/-- The theorem, for a run with a restart. -/
theorem identifies_restart : Identifies (machine.exec machine.init (start ++ restart)) :=
  identifies (by decide +kernel)

/-- The tab commits another document before the worker is stopped. -/
theorem not_identifies_restarted :
    ¬ ∀ es : List Event, machine.Runs machine.init es →
      Identifies (machine.exec machine.init es) := by
  intro h
  have h_runs : machine.Runs machine.init (start ++ [.commit 1, .notice 1] ++ restart) := by
    decide +kernel
  exact absurd (h _ h_runs) (by unfold Identifies; decide +kernel)

end BrowserControl.Extension.DocumentEpoch
