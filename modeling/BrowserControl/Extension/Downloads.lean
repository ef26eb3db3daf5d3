import BrowserControl.Extension.WaiterMoves

/-!
# Whose download it is

Chrome announces a download, and does not say which tab it belongs to. The service knows the tab if
it has started the download itself (`associateDownload`); otherwise it takes a download for that of
the only waiter without one (`noteDownloadCreated`), and rejects all of them if there are several.
Neither looks at what the other has found out.

`Downloads.machine` runs the two next to the requests that wait (`Waiters`), in any order.
`first` remembers the tab that a download was associated with at first. `attributed_iff` says when
nothing goes wrong.
-/

namespace BrowserControl.Extension.Downloads

open Encoding Transition

/-! ### State -/

/-- What `#downloadOwners` has for a download. -/
structure Owner where
  tabID : String
  sessionID : Option String

/-- A waiter was resolved with a download, or rejected because the download has failed. -/
structure Completion (ρ : Type*) where
  waiter : ρ × ℕ
  tabID : String
  downloadID : ℕ
  /-- The recorded owner of the download. -/
  owner : Option String

/-- A download that several waiters might have waited for. -/
structure Ambiguity (ρ : Type*) where
  candidates : List (ρ × ℕ)
  error : RpcError

/-- `DownloadItem.state` -/
inductive DownloadState where
  | inProgress
  | complete
  | interrupted
  deriving DecidableEq

/-- The waiters, and what is known of the downloads. -/
structure State (ρ : Type*) where
  waiters : Waiters.State ρ := {}
  /-- The session of a request, as its waiters remember it. -/
  sessions : ρ → Option String := fun _ => none
  downloadOwners : ℕ → Option Owner := fun _ => none
  /-- The tab that a download was associated with at first. -/
  first : ℕ → Option String := fun _ => none
  completions : List (Completion ρ) := []
  ambiguities : List (Ambiguity ρ) := []
  /-- The errors that waiters were rejected with since a download was ambiguous. -/
  rejections : List ((ρ × ℕ) × RpcError) := []

variable {ρ : Type*} [DecidableEq ρ]

/-- The name of a download outside the extension. -/
def publicDownloadID (downloadID : ℕ) : String := "download_" ++ toString downloadID

/-- The error for a download that several tabs may have begun. -/
def downloadAmbiguous (downloadID : ℕ) (candidateTabIDs : List String) : RpcError where
  kind := "DOWNLOAD_AMBIGUOUS"
  message := "multiple tabs were waiting when a download started"
  details := .ofFields [("downloadId", .str (publicDownloadID downloadID)),
    ("candidateTabIds", .arr (candidateTabIDs.map .str))]

/-! ### The source -/

namespace State

variable (s : State ρ)

/-- The waiters without a download. -/
def candidates : List (ρ × ℕ) :=
  s.waiters.downloadWaiters.filter fun w => (s.waiters.waiter w).downloadID = none

/-- Those of a tab. -/
def candidatesOf (tabID : String) : List (ρ × ℕ) :=
  s.waiters.downloadWaiters.filter fun w =>
    (s.waiters.waiter w).downloadID = none && (s.waiters.waiter w).tabID = tabID

/-- `#downloadOwners.set`; what comes first is remembered. -/
def setOwner (downloadID : ℕ) (owner : Owner) : State ρ :=
  { s with
    downloadOwners := Function.update s.downloadOwners downloadID (some owner)
    first := Function.update s.first downloadID
      (some ((s.first downloadID).getD owner.tabID)) }

/-- A download has no tab any more. -/
def deleteOwner (downloadID : ℕ) : State ρ :=
  { s with downloadOwners := Function.update s.downloadOwners downloadID none }

/-- The tab of the recorded owner. -/
def ownerTab (downloadID : ℕ) : Option String := (s.downloadOwners downloadID).map (·.tabID)

/-- `#associateDownload` -/
def associateDownload (downloadID : ℕ) (tabID : String) (sessionID : Option String) : State ρ :=
  { s with waiters := s.waiters.associateDownload downloadID tabID }.setOwner downloadID
    { tabID, sessionID }

/-- `#noteDownloadCreated` -/
def noteDownloadCreated (downloadID : ℕ) : State ρ :=
  let noted := { s with waiters := s.waiters.noteDownloadCreated downloadID }
  match s.candidates with
  | [] => noted
  | [w] => noted.setOwner downloadID
    { tabID := (s.waiters.waiter w).tabID, sessionID := s.sessions w.1 }
  | candidates =>
    let error := downloadAmbiguous downloadID (candidates.map fun w => (s.waiters.waiter w).tabID)
    { noted with
      ambiguities := s.ambiguities ++ [⟨candidates, error⟩]
      rejections := s.rejections ++ candidates.map (·, error) }

/-- `#completeDownloadWaiter` -/
def completeDownloadWaiter (downloadID : ℕ) (complete : Bool) : State ρ :=
  { s with
    waiters := s.waiters.completeDownload downloadID complete
    completions := s.completions ++
      ((s.waiters.downloadWaiters.find? fun w =>
        (s.waiters.waiter w).downloadID = some downloadID).map fun w =>
          ⟨w, (s.waiters.waiter w).tabID, downloadID, s.ownerTab downloadID⟩).toList }

/-- `#emit`, for the waiters. -/
def emit (type : String) (tabID : Option String) : State ρ :=
  { s with waiters := s.waiters.emit type tabID none }

/-- The listener of `downloads.onCreated`. -/
def onCreated (downloadID : ℕ) : State ρ :=
  (s.noteDownloadCreated downloadID).emit "download.started"
    ((s.noteDownloadCreated downloadID).ownerTab downloadID)

/-- The listener of `downloads.onChanged`, for a download that is found. -/
def onChanged (downloadID : ℕ) : DownloadState → State ρ
  | .inProgress => s.emit "download.progress" (s.ownerTab downloadID)
  | .complete =>
    ((s.emit "download.completed" (s.ownerTab downloadID)).completeDownloadWaiter downloadID true)
      |>.deleteOwner downloadID
  | .interrupted =>
    ((s.emit "download.failed" (s.ownerTab downloadID)).completeDownloadWaiter downloadID false)
      |>.deleteOwner downloadID

end State

/-! ### The machine -/

/-- What can happen. -/
inductive Event (ρ : Type*) where
  /-- A request goes on; a tab has a session if it is claimed. -/
  | request (e : Waiters.Event ρ) (sessionID : Option String)
  /-- `downloadMedia` has started a download for a tab. -/
  | associateDownload (downloadID : ℕ) (tabID : String) (sessionID : Option String)
  | onCreated (downloadID : ℕ)
  | onChanged (downloadID : ℕ) (state : DownloadState)
  | stopAll

/-- The step is none that has to do with downloads. -/
def IsRequest : Waiters.Event ρ → Prop
  | .associateDownload .. | .noteDownloadCreated _ | .completeDownload .. | .stopAll => False
  | _ => True

instance : ∀ e : Waiters.Event ρ, Decidable (IsRequest e)
  | .associateDownload .. | .noteDownloadCreated _ | .completeDownload .. | .stopAll => isFalse id
  | .perform .. | .wait .. | .acted _ | .failed _ | .allSettled _ | .resolved _ | .rejected _
  | .finished _ | .timeout _ | .emit .. | .stopSession _ => isTrue trivial

/-- When a step can happen. -/
def enabled (s : State ρ) : Event ρ → Prop
  | .request e _ => Waiters.enabled s.waiters e ∧ IsRequest e
  | _ => True

instance (s : State ρ) : ∀ e, Decidable (enabled s e)
  | .request e _ => inferInstanceAs (Decidable (Waiters.enabled s.waiters e ∧ IsRequest e))
  | .associateDownload .. | .onCreated _ | .onChanged .. | .stopAll => isTrue trivial

/-- The waiters of a request remember the session. -/
def rememberSession (sessions : ρ → Option String) (sessionID : Option String) :
    Waiters.Event ρ → ρ → Option String
  | .perform r _ _ | .wait r _ _ => Function.update sessions r sessionID
  | _ => sessions

/-- One step of the service. -/
def next (s : State ρ) : Event ρ → State ρ
  | .request e sessionID =>
    { s with
      waiters := Waiters.next s.waiters e
      sessions := rememberSession s.sessions sessionID e }
  | .associateDownload downloadID tabID sessionID => s.associateDownload downloadID tabID sessionID
  | .onCreated downloadID => s.onCreated downloadID
  | .onChanged downloadID state => s.onChanged downloadID state
  | .stopAll =>
    { s with waiters := Waiters.next s.waiters .stopAll, downloadOwners := fun _ => none }

/-- Downloads, and the requests that wait. -/
def machine (ρ : Type*) [DecidableEq ρ] : Machine (State ρ) (Event ρ) where
  init := {}
  enabled := enabled
  next := next

instance (s : State ρ) (e : Event ρ) : Decidable ((machine ρ).enabled s e) :=
  inferInstanceAs (Decidable (enabled s e))

/-- **Downloads are attributed to the right tab.** -/
structure Attributed (s : State ρ) : Prop where
  /-- The owner of a download does not change. -/
  owner : ∀ downloadID, ∀ tabID ∈ s.ownerTab downloadID, s.first downloadID = some tabID
  /-- A download is held by one waiter. -/
  single : ∀ downloadID, ∀ w ∈ s.waiters.downloadWaiters, ∀ w' ∈ s.waiters.downloadWaiters,
    (s.waiters.waiter w).downloadID = some downloadID →
    (s.waiters.waiter w').downloadID = some downloadID → w = w'
  /-- The owner of a download is the tab of the waiter that gets it. -/
  completions : ∀ c ∈ s.completions, c.owner = some c.tabID
  /-- If there are several candidates, all of them are rejected. -/
  ambiguities : ∀ a ∈ s.ambiguities, a.error.kind = "DOWNLOAD_AMBIGUOUS" ∧
    ∀ w ∈ a.candidates, (w, a.error) ∈ s.rejections ∧ (s.waiters.waiter w).outcome = some false

/-- The download has been associated with no other tab before. -/
def FirstFor (s : State ρ) (downloadID : ℕ) (tabID : String) : Prop :=
  ∀ first ∈ s.first downloadID, first = tabID

/-- No waiter holds the download. -/
def Free (s : State ρ) (downloadID : ℕ) : Prop :=
  ∀ w ∈ s.waiters.downloadWaiters, (s.waiters.waiter w).downloadID ≠ some downloadID

/-- A download that gets an owner has had no other one, and no waiter holds it already if it is
given to one. -/
def Undisputed (s : State ρ) : Event ρ → Prop
  | .associateDownload downloadID tabID _ =>
    FirstFor s downloadID tabID ∧ ((s.candidatesOf tabID).length = 1 → Free s downloadID)
  | .onCreated downloadID => s.candidates.length = 1 →
    (∀ w ∈ s.candidates, FirstFor s downloadID (s.waiters.waiter w).tabID) ∧ Free s downloadID
  | _ => True

instance (s : State ρ) (downloadID : ℕ) (tabID : String) :
    Decidable (FirstFor s downloadID tabID) :=
  inferInstanceAs (Decidable (∀ first ∈ s.first downloadID, first = tabID))

instance (s : State ρ) (downloadID : ℕ) : Decidable (Free s downloadID) :=
  inferInstanceAs (Decidable (∀ w ∈ s.waiters.downloadWaiters, _))

instance (s : State ρ) : ∀ e, Decidable (Undisputed s e)
  | .associateDownload _ _ _ => inferInstanceAs (Decidable (_ ∧ _))
  | .onCreated downloadID => inferInstanceAs (Decidable (s.candidates.length = 1 →
    (∀ w ∈ s.candidates, FirstFor s downloadID (s.waiters.waiter w).tabID) ∧ Free s downloadID))
  | .request .. | .onChanged .. | .stopAll => isTrue trivial

/-! ### What the announcements do -/

variable {s : State ρ}

section

omit [DecidableEq ρ]

/-- A download belongs to the tab that was written. -/
theorem ownerTab_setOwner (s : State ρ) (downloadID : ℕ) (owner : Owner) :
    (s.setOwner downloadID owner).ownerTab downloadID = some owner.tabID := by
  simp [State.ownerTab, State.setOwner]

theorem ownerTab_setOwner_of_ne (s : State ρ) {downloadID downloadID' : ℕ}
    (h : downloadID' ≠ downloadID) (owner : Owner) :
    (s.setOwner downloadID owner).ownerTab downloadID' = s.ownerTab downloadID' := by
  simp [State.ownerTab, State.setOwner, h]

/-- The first tab of a download stays the first. -/
theorem first_setOwner (s : State ρ) (downloadID : ℕ) (owner : Owner) :
    (s.setOwner downloadID owner).first downloadID =
      some ((s.first downloadID).getD owner.tabID) := Function.update_self ..

/-- The download belongs to no tab. -/
theorem ownerTab_deleteOwner (s : State ρ) (downloadID : ℕ) :
    (s.deleteOwner downloadID).ownerTab downloadID = none := by
  simp [State.ownerTab, State.deleteOwner]

theorem ownerTab_deleteOwner_of_ne (s : State ρ) {downloadID downloadID' : ℕ}
    (h : downloadID' ≠ downloadID) :
    (s.deleteOwner downloadID).ownerTab downloadID' = s.ownerTab downloadID' := by
  simp [State.ownerTab, State.deleteOwner, h]

/-- A candidate waits for a download and has none. -/
theorem mem_candidates {w : ρ × ℕ} : w ∈ s.candidates ↔
    w ∈ s.waiters.downloadWaiters ∧ (s.waiters.waiter w).downloadID = none := by
  rw [State.candidates, List.mem_filter, decide_eq_true_eq]

/-- The candidates of one tab. -/
theorem mem_candidatesOf {tabID : String} {w : ρ × ℕ} : w ∈ s.candidatesOf tabID ↔
    w ∈ s.waiters.downloadWaiters ∧ (s.waiters.waiter w).downloadID = none ∧
      (s.waiters.waiter w).tabID = tabID := by
  rw [State.candidatesOf, List.mem_filter, Bool.and_eq_true, decide_eq_true_eq, decide_eq_true_eq]

end

/-- A download is given to the only waiter of the tab that has none, or to nobody. -/
theorem associateDownload_cases (s : State ρ) (downloadID : ℕ) (tabID : String) :
    (∃ w, s.candidatesOf tabID = [w] ∧
      s.waiters.associateDownload downloadID tabID = s.waiters.setDownloadID w downloadID) ∨
    (s.candidatesOf tabID).length ≠ 1 ∧
      s.waiters.associateDownload downloadID tabID = s.waiters := by
  unfold Waiters.State.associateDownload
  split
  case h_1 w h_filter => exact .inl ⟨w, h_filter, rfl⟩
  case h_2 h_not =>
    refine .inr ⟨fun h_one => ?_, rfl⟩
    obtain ⟨w, h_filter⟩ := List.length_eq_one_iff.mp h_one
    exact h_not w h_filter

/-- There is no candidate, or one that is given the download, or all of them are rejected. -/
theorem noteDownloadCreated_cases (s : State ρ) (downloadID : ℕ) :
    s.candidates = [] ∧ s.noteDownloadCreated downloadID = s ∨
    (∃ w, s.candidates = [w] ∧ s.noteDownloadCreated downloadID =
      { s.setOwner downloadID
          { tabID := (s.waiters.waiter w).tabID, sessionID := s.sessions w.1 } with
        waiters := s.waiters.setDownloadID w downloadID }) ∨
    s.candidates.length ≠ 1 ∧ ∃ error : RpcError, error.kind = "DOWNLOAD_AMBIGUOUS" ∧
      s.noteDownloadCreated downloadID =
        { s with
          waiters := s.waiters.settleAll s.candidates false
          ambiguities := s.ambiguities ++ [⟨s.candidates, error⟩]
          rejections := s.rejections ++ s.candidates.map (·, error) } := by
  unfold State.noteDownloadCreated Waiters.State.noteDownloadCreated
  unfold State.candidates
  generalize s.waiters.downloadWaiters.filter _ = candidates
  -- no candidate, one, or several
  cases candidates with
  | nil => exact .inl ⟨rfl, rfl⟩
  | cons w ws =>
    cases ws with
    | nil => exact .inr (.inl ⟨w, rfl, rfl⟩)
    | cons w' ws => exact .inr (.inr ⟨by simp, _, rfl, rfl⟩)

/-- What is emitted settles no waiter for a download. -/
theorem emit_downloadWaiters {s : Waiters.State ρ} (hI : Waiters.Inv s) (type : String)
    (tabID openerTabID : Option String) {w : ρ × ℕ} (hw : w ∈ s.downloadWaiters) :
    w ∈ (s.emit type tabID openerTabID).downloadWaiters ∧
      (s.emit type tabID openerTabID).waiter w = s.waiter w := by
  have h_notMem : w ∉ s.waiters.filter (s.awaits type tabID openerTabID) := by
    intro h_mem
    exact (List.nodup_append.mp hI.nodup).2.2 w (List.mem_filter.mp h_mem).1 w hw rfl
  exact ⟨Waiters.mem_downloadWaiters_settleAll.mpr ⟨hw, h_notMem⟩,
    Waiters.waiter_settleAll_of_notMem h_notMem true⟩

/-! ### Rejected candidates -/

/-- What holds in every run. -/
structure Inv (s : State ρ) : Prop where
  waiters : Waiters.Inv s.waiters
  begun : Waiters.Begun s.waiters
  ambiguities : ∀ a ∈ s.ambiguities, a.error.kind = "DOWNLOAD_AMBIGUOUS" ∧
    ∀ w ∈ a.candidates, (w, a.error) ∈ s.rejections ∧ (s.waiters.waiter w).outcome = some false

omit [DecidableEq ρ] in
theorem Inv.init : Inv ({} : State ρ) where
  waiters := .init
  begun _ h := absurd rfl h
  ambiguities := List.forall_mem_nil _

/-- A step of the requests. -/
theorem Inv.moves (hI : Inv s) {s' : State ρ} {e : Waiters.Event ρ}
    (he : Waiters.enabled s.waiters e) (h_waiters : s'.waiters = Waiters.next s.waiters e)
    (h_ambiguities : s'.ambiguities = s.ambiguities) (h_rejections : s'.rejections = s.rejections) :
    Inv s' := by
  refine ⟨?_, ?_, ?_⟩
  · rw [h_waiters]
    exact hI.waiters.step he
  · rw [h_waiters]
    exact hI.begun.step hI.waiters he
  · intro a ha
    rw [h_ambiguities] at ha
    -- An ambiguity and its candidates stay: a waiter that settled does not come back.
    obtain ⟨h_kind, h_candidates⟩ := hI.ambiguities a ha
    refine ⟨h_kind, fun w hw => ?_⟩
    obtain ⟨h_rejected, h_outcome⟩ := h_candidates w hw
    rw [h_rejections, h_waiters]
    exact ⟨h_rejected, Waiters.outcome_next hI.waiters hI.begun he h_outcome⟩

/-- An event of a tab changes no download. -/
theorem Inv.emit (hI : Inv s) (type : String) (tabID : Option String) : Inv (s.emit type tabID) :=
  hI.moves (e := .emit type tabID none) trivial rfl rfl rfl

/-- A download begins. -/
theorem Inv.noteDownloadCreated (hI : Inv s) (downloadID : ℕ) :
    Inv (s.noteDownloadCreated downloadID) := by
  -- In every case the waiters change at most by the binding of one of them.
  have h_next : (s.noteDownloadCreated downloadID).waiters =
      Waiters.next s.waiters (.noteDownloadCreated downloadID) := by
    unfold State.noteDownloadCreated
    split <;> rfl
  rcases noteDownloadCreated_cases s downloadID with
    ⟨-, h_eq⟩ | ⟨w, -, h_eq⟩ | ⟨-, error, h_kind, h_eq⟩
  · rw [h_eq]
    exact hI
  · exact hI.moves (e := .noteDownloadCreated downloadID) trivial h_next (by rw [h_eq]; rfl)
      (by rw [h_eq]; rfl)
  · -- The old ambiguities are as they were, and the candidates of the new one are rejected now.
    have h_old :
        Inv { s with waiters := Waiters.next s.waiters (.noteDownloadCreated downloadID) } :=
      hI.moves (e := .noteDownloadCreated downloadID) trivial rfl rfl rfl
    refine ⟨by rw [h_next]; exact h_old.waiters, by rw [h_next]; exact h_old.begun, ?_⟩
    intro a ha
    rw [h_eq] at ha
    rcases List.mem_append.mp ha with ha | ha
    · obtain ⟨h_kind', h_candidates⟩ := h_old.ambiguities a ha
      refine ⟨h_kind', fun w hw => ?_⟩
      obtain ⟨h_rejected, h_outcome⟩ := h_candidates w hw
      rw [h_next]
      refine ⟨?_, h_outcome⟩
      rw [h_eq]
      exact List.mem_append_left _ h_rejected
    · rw [List.mem_singleton] at ha
      subst ha
      refine ⟨h_kind, fun w hw => ?_⟩
      rw [h_eq]
      refine ⟨List.mem_append_right _ (List.mem_map_of_mem hw), ?_⟩
      have h_mem := mem_candidates.mp hw
      have h_nodup : s.candidates.Nodup := hI.waiters.nodup_downloadWaiters.filter _
      have h_none := (hI.waiters.unsettled w (List.mem_append_right _ h_mem.1)).2
      show ((s.waiters.settleAll s.candidates false).waiter w).outcome = some false
      rw [Waiters.waiter_settleAll_of_mem h_nodup hw, Waiters.Waiter.settled, h_none]
      rfl

/-- Every step keeps the invariant. -/
theorem Inv.step (hI : Inv s) {e : Event ρ} (he : enabled s e) : Inv (next s e) := by
  cases e with
  | request e sessionID => exact hI.moves he.1 rfl rfl rfl
  | associateDownload downloadID tabID sessionID =>
    exact hI.moves (e := .associateDownload downloadID tabID) trivial rfl rfl rfl
  | onCreated downloadID => exact (hI.noteDownloadCreated downloadID).emit _ _
  -- A finished download settles its waiters and emits one event.
  | onChanged downloadID state =>
    have h_done : ∀ (type : String) (complete : Bool),
        Inv (((s.emit type (s.ownerTab downloadID)).completeDownloadWaiter downloadID complete)
          |>.deleteOwner downloadID) := fun type complete =>
      (hI.emit type _).moves (e := .completeDownload downloadID complete) trivial rfl rfl rfl
    cases state with
    | inProgress => exact hI.emit _ _
    | complete => exact h_done "download.completed" true
    | interrupted => exact h_done "download.failed" false
  | stopAll => exact hI.moves (e := .stopAll) trivial rfl rfl rfl

/-! ### Owners -/

/-- What is kept as long as downloads are undisputed. -/
structure Kept (s : State ρ) : Prop where
  owner : ∀ downloadID, ∀ tabID ∈ s.ownerTab downloadID, s.first downloadID = some tabID
  /-- A waiter holds downloads of its tab. -/
  held : ∀ downloadID, ∀ w ∈ s.waiters.downloadWaiters,
    (s.waiters.waiter w).downloadID = some downloadID →
    s.ownerTab downloadID = some (s.waiters.waiter w).tabID
  single : ∀ downloadID, ∀ w ∈ s.waiters.downloadWaiters, ∀ w' ∈ s.waiters.downloadWaiters,
    (s.waiters.waiter w).downloadID = some downloadID →
    (s.waiters.waiter w').downloadID = some downloadID → w = w'
  completions : ∀ c ∈ s.completions, c.owner = some c.tabID

omit [DecidableEq ρ] in
theorem Kept.init : Kept ({} : State ρ) where
  owner _ _ h := by cases h
  held _ := List.forall_mem_nil _
  single _ := List.forall_mem_nil _
  completions := List.forall_mem_nil _

omit [DecidableEq ρ] in
/-- What is kept of a download says to which tab it belongs. -/
theorem Kept.attributed (hK : Kept s) (hI : Inv s) : Attributed s where
  owner := hK.owner
  single := hK.single
  completions := hK.completions
  ambiguities := hI.ambiguities

omit [DecidableEq ρ] in
/-- Who holds a download after a step that gives none has held it before. -/
theorem held_of_moved {s s' : Waiters.State ρ} {e : Waiters.Event ρ}
    (h_binds : ∀ downloadID, ¬ Waiters.Binds downloadID e) {w : ρ × ℕ}
    (h_moved : Waiters.Moved s e s' w) (hw : w ∈ s'.downloadWaiters) {downloadID : ℕ}
    (h : (s'.waiter w).downloadID = some downloadID) :
    w ∈ s.downloadWaiters ∧ s'.waiter w = s.waiter w := by
  cases h_moved with
  | same h_same h_set => exact ⟨h_set.mp hw, h_same⟩
  | armed tabID awaited h_outside h_armed h_set =>
    rw [h_armed] at h
    cases h
  | settled ok h_old h_new h_settled h_ok => exact absurd (List.mem_append_right _ hw) h_new
  | bound downloadID' h_binds' => exact absurd h_binds' (h_binds downloadID')

omit [DecidableEq ρ] in
/-- A step of the requests that gives no download to anyone. -/
theorem Kept.moves (hK : Kept s) {s' : State ρ} {e : Waiters.Event ρ}
    (h_binds : ∀ downloadID, ¬ Waiters.Binds downloadID e)
    (h_moved : ∀ w, Waiters.Moved s.waiters e s'.waiters w)
    (h_owners : s'.downloadOwners = s.downloadOwners) (h_first : s'.first = s.first)
    (h_completions : s'.completions = s.completions) : Kept s' := by
  have h_ownerTab : s'.ownerTab = s.ownerTab := by
    funext downloadID
    rw [State.ownerTab, h_owners, State.ownerTab]
  refine ⟨?_, ?_, ?_, ?_⟩
  · rw [h_ownerTab, h_first]
    exact hK.owner
  -- whoever holds a download held it before
  · intro downloadID w hw h_id
    obtain ⟨h_old, h_same⟩ := held_of_moved h_binds (h_moved w) hw h_id
    rw [h_same] at h_id ⊢
    rw [h_ownerTab]
    exact hK.held downloadID w h_old h_id
  · intro downloadID w hw w' hw' h_id h_id'
    obtain ⟨h_old, h_same⟩ := held_of_moved h_binds (h_moved w) hw h_id
    obtain ⟨h_old', h_same'⟩ := held_of_moved h_binds (h_moved w') hw' h_id'
    rw [h_same] at h_id
    rw [h_same'] at h_id'
    exact hK.single downloadID w h_old w' h_old' h_id h_id'
  · rw [h_completions]
    exact hK.completions

/-- An event of a tab changes no download. -/
theorem Kept.emit (hK : Kept s) (hI : Inv s) (type : String) (tabID : Option String) :
    Kept (s.emit type tabID) :=
  hK.moves (e := .emit type tabID none) (fun _ => id) (Waiters.moved hI.waiters trivial) rfl rfl rfl

omit [DecidableEq ρ] in
/-- A download gets an owner. -/
theorem Kept.setOwner (hK : Kept s) {downloadID : ℕ} {owner : Owner}
    (h_first : FirstFor s downloadID owner.tabID) : Kept (s.setOwner downloadID owner) := by
  have h_getD : (s.first downloadID).getD owner.tabID = owner.tabID := by
    cases h : s.first downloadID with
    | none => rfl
    | some first => exact h_first first h
  refine ⟨?_, ?_, hK.single, hK.completions⟩
  · intro downloadID' tabID h_tab
    by_cases h : downloadID' = downloadID
    · subst h
      rw [ownerTab_setOwner] at h_tab
      cases h_tab
      exact (Function.update_self ..).trans (congrArg some h_getD)
    · rw [ownerTab_setOwner_of_ne s h] at h_tab
      exact (Function.update_of_ne h ..).trans (hK.owner downloadID' tabID h_tab)
  · intro downloadID' w hw h_id
    have h_old := hK.held downloadID' w hw h_id
    by_cases h : downloadID' = downloadID
    · subst h
      -- The download belonged to the tab of the waiter at first, and still does.
      have h_tab := h_first _ (hK.owner downloadID' _ h_old)
      rw [ownerTab_setOwner, ← h_tab]
      rfl
    · rw [ownerTab_setOwner_of_ne s h]
      exact h_old

/-- A waiter gets a download that belongs to its tab and that nobody holds. -/
theorem Kept.setDownloadID (hK : Kept s) {downloadID : ℕ} {w : ρ × ℕ}
    (h_owner : s.ownerTab downloadID = some (s.waiters.waiter w).tabID)
    (h_free : Free s downloadID) :
    Kept { s with waiters := s.waiters.setDownloadID w downloadID } := by
  have h_self : (s.waiters.setDownloadID w downloadID).waiter w =
      { s.waiters.waiter w with downloadID := some downloadID } := Function.update_self ..
  have h_other : ∀ {w'}, w' ≠ w →
      (s.waiters.setDownloadID w downloadID).waiter w' = s.waiters.waiter w' := fun h =>
    Function.update_of_ne h ..
  -- The download is held by the waiter, and each other one by who held it before.
  have h_holds : ∀ {w' downloadID'}, w' ∈ s.waiters.downloadWaiters →
      ((s.waiters.setDownloadID w downloadID).waiter w').downloadID = some downloadID' →
      w' = w ∧ downloadID' = downloadID ∨
        w' ≠ w ∧ downloadID' ≠ downloadID ∧
          (s.waiters.waiter w').downloadID = some downloadID' := by
    intro w' downloadID' hw' h_id
    by_cases h : w' = w
    · subst h
      rw [h_self] at h_id
      exact .inl ⟨rfl, (Option.some.inj h_id).symm⟩
    · rw [h_other h] at h_id
      refine .inr ⟨h, ?_, h_id⟩
      rintro rfl
      exact h_free w' hw' h_id
  refine ⟨hK.owner, ?_, ?_, hK.completions⟩
  -- the owner: of the new holder by the assumption, of an old one as before
  · intro downloadID' w' hw' h_id
    show s.ownerTab downloadID' =
      some ((s.waiters.setDownloadID w downloadID).waiter w').tabID
    rcases h_holds hw' h_id with ⟨rfl, rfl⟩ | ⟨h_ne, -, h_old⟩
    · rw [h_self]
      exact h_owner
    · rw [h_other h_ne]
      exact hK.held downloadID' w' hw' h_old
  -- the holder is unique: a new one and an old one would hold a download that was free
  · intro downloadID' w₁ hw₁ w₂ hw₂ h_id₁ h_id₂
    rcases h_holds hw₁ h_id₁ with ⟨rfl, rfl⟩ | ⟨-, h_ne, h_old₁⟩
    · rcases h_holds hw₂ h_id₂ with ⟨rfl, -⟩ | ⟨-, h_ne, -⟩
      · rfl
      · exact absurd rfl h_ne
    · rcases h_holds hw₂ h_id₂ with ⟨-, h_eq⟩ | ⟨-, -, h_old₂⟩
      · exact absurd h_eq h_ne
      · exact hK.single downloadID' w₁ hw₁ w₂ hw₂ h_old₁ h_old₂

/-- A waiter gets a download that nobody else has had. -/
theorem Kept.give (hK : Kept s) {downloadID : ℕ} {w : ρ × ℕ} {sessionID : Option String}
    (h_first : FirstFor s downloadID (s.waiters.waiter w).tabID) (h_free : Free s downloadID) :
    Kept { s.setOwner downloadID { tabID := (s.waiters.waiter w).tabID, sessionID } with
      waiters := s.waiters.setDownloadID w downloadID } := by
  have h_owned : Kept (s.setOwner downloadID { tabID := (s.waiters.waiter w).tabID, sessionID }) :=
    hK.setOwner h_first
  exact h_owned.setDownloadID (ownerTab_setOwner ..) h_free

/-- A waiter that is completed gets a download of its tab, and nobody holds the download then. -/
theorem Kept.completeDownloadWaiter (hK : Kept s) (hI : Inv s) (downloadID : ℕ) (complete : Bool) :
    Kept (s.completeDownloadWaiter downloadID complete) ∧
      Free (s.completeDownloadWaiter downloadID complete) downloadID := by
  have h_enabled : Waiters.enabled s.waiters (.completeDownload downloadID complete) := trivial
  have h_moved := Waiters.moved hI.waiters h_enabled
  have h_settled : Kept { s with waiters := s.waiters.completeDownload downloadID complete } :=
    hK.moves (fun _ => id) h_moved rfl rfl rfl
  refine ⟨⟨h_settled.owner, h_settled.held, h_settled.single, ?_⟩, ?_⟩
  -- a completion is an old one or the one of the waiter that is found
  · intro c hc
    rcases List.mem_append.mp hc with hc | hc
    · exact hK.completions c hc
    · rw [Option.mem_toList, Option.map_eq_some_iff] at hc
      obtain ⟨w, h_find, rfl⟩ := hc
      exact hK.held downloadID w (List.mem_of_find?_eq_some h_find)
        (by simpa using List.find?_some h_find)
  -- afterwards nobody waits for the download any more
  · intro w hw h_id
    obtain ⟨h_old, h_same⟩ := held_of_moved (fun _ => id) (h_moved w) hw h_id
    have h_held : (s.waiters.waiter w).downloadID = some downloadID := h_same ▸ h_id
    -- The waiter that is found is the only one, and leaves the set.
    cases h_find : s.waiters.downloadWaiters.find? fun w =>
        (s.waiters.waiter w).downloadID = some downloadID with
    | none => exact absurd (decide_eq_true h_held) (List.find?_eq_none.mp h_find w h_old)
    | some w' =>
      have h_eq : w = w' := hK.single downloadID w h_old w' (List.mem_of_find?_eq_some h_find)
        h_held (by simpa using List.find?_some h_find)
      have h_settle : (s.completeDownloadWaiter downloadID complete).waiters =
          s.waiters.settle w' complete := by
        simp only [State.completeDownloadWaiter, Waiters.State.completeDownload, h_find]
      rw [h_settle, h_eq] at hw
      exact absurd rfl (of_decide_eq_true (List.mem_filter.mp hw).2)

omit [DecidableEq ρ] in
/-- An owner is forgotten whose download nobody holds. -/
theorem Kept.deleteOwner (hK : Kept s) {downloadID : ℕ} (h_free : Free s downloadID) :
    Kept (s.deleteOwner downloadID) := by
  refine ⟨?_, ?_, hK.single, hK.completions⟩
  · intro downloadID' tabID h_tab
    by_cases h : downloadID' = downloadID
    · subst h
      rw [ownerTab_deleteOwner] at h_tab
      cases h_tab
    · rw [ownerTab_deleteOwner_of_ne s h] at h_tab
      exact hK.owner downloadID' tabID h_tab
  · intro downloadID' w hw h_id
    -- A waiter's download is not the one that is free.
    have h_ne : downloadID' ≠ downloadID := by
      rintro rfl
      exact h_free w hw h_id
    rw [ownerTab_deleteOwner_of_ne s h_ne]
    exact hK.held downloadID' w hw h_id

omit [DecidableEq ρ] in
/-- A request binds no download to a waiter. -/
theorem not_binds_of_isRequest {e : Waiters.Event ρ} (h : IsRequest e) (downloadID : ℕ) :
    ¬ Waiters.Binds downloadID e := by
  cases e with
  | associateDownload _ _ | noteDownloadCreated _ => exact absurd h id
  | _ => exact id

/-- The tab of a download that is not disputed may be written. -/
theorem Kept.associateDownload (hK : Kept s) {downloadID : ℕ} {tabID : String}
    {sessionID : Option String} (h : Undisputed s (.associateDownload downloadID tabID sessionID)) :
    Kept (s.associateDownload downloadID tabID sessionID) := by
  unfold State.associateDownload
  rcases associateDownload_cases s downloadID tabID with ⟨w, h_one, h_eq⟩ | ⟨-, h_eq⟩
  · obtain ⟨-, -, h_tab⟩ := mem_candidatesOf.mp (h_one ▸ List.mem_singleton_self w)
    rw [h_eq, ← h_tab]
    exact hK.give (h_tab ▸ h.1) (h.2 (by rw [h_one]; rfl))
  · rw [h_eq]
    exact hK.setOwner h.1

/-- A download goes to the tab that waits for it alone. -/
theorem Kept.noteDownloadCreated (hK : Kept s) (hI : Inv s) {downloadID : ℕ}
    (h : Undisputed s (.onCreated downloadID)) : Kept (s.noteDownloadCreated downloadID) := by
  rcases noteDownloadCreated_cases s downloadID with
    ⟨-, h_eq⟩ | ⟨w, h_one, h_eq⟩ | ⟨-, error, -, h_eq⟩
  · rw [h_eq]
    exact hK
  · obtain ⟨h_first, h_free⟩ := h (by rw [h_one]; rfl)
    rw [h_eq]
    exact hK.give (h_first w (h_one ▸ List.mem_singleton_self w)) h_free
  · rw [h_eq]
    refine hK.moves (e := .stopAll) (fun _ => id) ?_ rfl rfl rfl
    exact Waiters.moved_settleAll (hI.waiters.nodup_downloadWaiters.filter _)
      (fun w hw => List.mem_append_right _ (mem_candidates.mp hw).1)
      (fun h => absurd h Bool.false_ne_true)

/-- Every step that is not disputed keeps what is known. -/
theorem Kept.step (hK : Kept s) (hI : Inv s) {e : Event ρ} (he : enabled s e)
    (h : Undisputed s e) : Kept (next s e) := by
  cases e with
  | request e sessionID =>
    exact hK.moves (not_binds_of_isRequest he.2) (Waiters.moved hI.waiters he.1) rfl rfl rfl
  | associateDownload downloadID tabID sessionID => exact hK.associateDownload h
  | onCreated downloadID =>
    exact (hK.noteDownloadCreated hI h).emit (hI.noteDownloadCreated downloadID) _ _
  | onChanged downloadID state =>
    have h_done : ∀ (type : String) (complete : Bool),
        Kept (((s.emit type (s.ownerTab downloadID)).completeDownloadWaiter downloadID complete)
          |>.deleteOwner downloadID) := by
      intro type complete
      obtain ⟨h_kept, h_free⟩ :=
        (hK.emit hI type _).completeDownloadWaiter (hI.emit type _) downloadID complete
      exact h_kept.deleteOwner h_free
    cases state with
    | inProgress => exact hK.emit hI _ _
    | complete => exact h_done "download.completed" true
    | interrupted => exact h_done "download.failed" false
  | stopAll =>
    -- No waiter and no owner is left.
    have h_stopped : ∀ w, w ∉ (Waiters.next s.waiters .stopAll).downloadWaiters := by
      intro w hw
      obtain ⟨h_mem, h_not⟩ := Waiters.mem_downloadWaiters_settleAll.mp hw
      exact h_not (List.mem_append_right _ h_mem)
    refine ⟨fun downloadID tabID h_tab => ?_, fun downloadID w hw => absurd hw (h_stopped w),
      fun downloadID w hw => absurd hw (h_stopped w), hK.completions⟩
    cases h_tab

/-! ### Disputed downloads -/

omit [DecidableEq ρ] in
/-- The first owner is still the owner. -/
theorem firstFor_of_attributed {s' : State ρ} (h : Attributed s') {downloadID : ℕ} {tabID : String}
    (h_owner : s'.ownerTab downloadID = some tabID)
    (h_first : s'.first downloadID = some ((s.first downloadID).getD tabID)) :
    FirstFor s downloadID tabID := by
  intro first h_mem
  have h_tab := h.owner downloadID tabID h_owner
  rw [h_first, Option.mem_def.mp h_mem] at h_tab
  exact Option.some.inj h_tab

/-- The waiter that gets a download is the only one to hold it. -/
theorem free_of_attributed {s' : State ρ} (h : Attributed s') {downloadID : ℕ} {w : ρ × ℕ}
    (h_none : (s.waiters.waiter w).downloadID = none)
    (h_same : ∀ w' ∈ s.waiters.downloadWaiters, w' ∈ s'.waiters.downloadWaiters ∧
      s'.waiters.waiter w' = (s.waiters.setDownloadID w downloadID).waiter w')
    (hw : w ∈ s.waiters.downloadWaiters) : Free s downloadID := by
  intro w' hw' h_id
  -- The waiter that is attributed had no download before.
  have h_ne : w' ≠ w := by
    rintro rfl
    rw [h_none] at h_id
    cases h_id
  obtain ⟨h_mem, h_waiter⟩ := h_same w hw
  obtain ⟨h_mem', h_waiter'⟩ := h_same w' hw'
  have h_holds : (s'.waiters.waiter w).downloadID = some downloadID := by
    simp [h_waiter, Waiters.State.setDownloadID]
  have h_holds' : (s'.waiters.waiter w').downloadID = some downloadID := by
    simp [h_waiter', Waiters.State.setDownloadID, h_ne, h_id]
  exact h_ne (h.single downloadID w' h_mem' w h_mem h_holds' h_holds)

/-- A disputed download is attributed to a wrong tab, or to two waiters. -/
theorem Inv.undisputed (hI : Inv s) {e : Event ρ} (h : Attributed (next s e)) : Undisputed s e := by
  cases e with
  -- The waiter that is chosen is the only candidate of the tab that the download is given to.
  | associateDownload downloadID tabID sessionID =>
    refine ⟨firstFor_of_attributed h (ownerTab_setOwner ..) (first_setOwner ..), fun h_one => ?_⟩
    rcases associateDownload_cases s downloadID tabID with ⟨w, h_filter, h_eq⟩ | ⟨h_not, -⟩
    · obtain ⟨hw, h_none, -⟩ := mem_candidatesOf.mp (h_filter ▸ List.mem_singleton_self w)
      refine free_of_attributed h h_none (fun w' hw' => ?_) hw
      show w' ∈ (s.waiters.associateDownload downloadID tabID).downloadWaiters ∧
        (s.waiters.associateDownload downloadID tabID).waiter w' = _
      rw [h_eq]
      exact ⟨hw', rfl⟩
    · exact absurd h_one h_not
  -- the same for the event of the browser, over the candidates of all tabs
  | onCreated downloadID =>
    intro h_one
    rcases noteDownloadCreated_cases s downloadID with ⟨h_nil, -⟩ | ⟨w, h_filter, h_eq⟩ | ⟨h_not, -⟩
    · rw [h_nil] at h_one
      cases h_one
    · obtain ⟨hw, h_none⟩ := mem_candidates.mp (h_filter ▸ List.mem_singleton_self w)
      have hI' := hI.noteDownloadCreated downloadID
      change Attributed ((s.noteDownloadCreated downloadID).emit _ _) at h
      rw [h_eq] at h hI'
      refine ⟨?_, free_of_attributed h h_none (fun w' hw' => ?_) hw⟩
      · rw [h_filter]
        intro w' hw'
        rw [List.mem_singleton.mp hw']
        exact firstFor_of_attributed h (ownerTab_setOwner ..) (first_setOwner ..)
      · -- What is emitted leaves the waiters for downloads alone.
        exact emit_downloadWaiters hI'.waiters _ _ none hw'
    · exact absurd h_one h_not
  | _ => trivial

/-- **Downloads are attributed to the right tab, unless they are disputed**: in a run, each
download keeps its owner, is held by one waiter and completes a waiter of its owner, if and only
if, whenever a download gets an owner, it has had no other one, and no waiter holds it if it is
given to one. -/
theorem attributed_iff {es : List (Event ρ)} (h : (machine ρ).Runs (machine ρ).init es) :
    (∀ es₁, es₁ <+: es → Attributed ((machine ρ).exec (machine ρ).init es₁)) ↔
      ((machine ρ).restrict Undisputed).Runs (machine ρ).init es := by
  refine h.restrict_iff (I := fun s => Inv s ∧ Kept s) ⟨.init, .init⟩ ?_ ?_ ?_
  · intro s e h_inv he h_undisputed
    exact ⟨h_inv.1.step he, h_inv.2.step h_inv.1 he h_undisputed⟩
  · intro s h_inv
    exact h_inv.2.attributed h_inv.1
  · intro s e h_inv _ h_not h_attributed
    exact h_not (h_inv.1.undisputed h_attributed)

/-- A request that waits for a download on a tab. -/
def waits (r : ℕ) (tabID : String) : Event ℕ :=
  .request (.wait r tabID (.ofFields [("type", .str "download")])) (some "ses_1")

/-- A download of one tab, and a later one of another tab. -/
theorem attributed_iff_two :
    (machine ℕ).Runs (machine ℕ).init [waits 0 "tab_1", .onCreated 1, .onChanged 1 .complete,
      waits 1 "tab_2", .associateDownload 2 "tab_2" (some "ses_1"), .onCreated 2,
      .onChanged 2 .complete] ∧
      ∀ es₁, es₁ <+: [waits 0 "tab_1", .onCreated 1, .onChanged 1 .complete,
        waits 1 "tab_2", .associateDownload 2 "tab_2" (some "ses_1"), .onCreated 2,
        .onChanged 2 .complete] →
        Attributed ((machine ℕ).exec (machine ℕ).init es₁) :=
  ⟨by decide, (attributed_iff (by decide)).mpr (by decide)⟩

/-- A download that is started for one tab is announced while another tab waits, and is taken for
that tab's. -/
theorem not_attributed_otherTab :
    ¬ ∀ es : List (Event ℕ), (machine ℕ).Runs (machine ℕ).init es →
      Attributed ((machine ℕ).exec (machine ℕ).init es) := by
  intro h
  have h_attributed :=
    h [waits 0 "tab_2", .associateDownload 1 "tab_1" (some "ses_1"), .onCreated 1]
    (by decide)
  have h_first := h_attributed.owner 1 "tab_2" (by decide)
  exact absurd h_first (by decide)

end BrowserControl.Extension.Downloads
