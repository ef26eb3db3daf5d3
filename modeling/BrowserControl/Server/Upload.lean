import BrowserControl.Server.Coherence
import BrowserControl.Server.UploadPolicy

/-!
# Uploads in every run

In the runs of the daemon, what the disk says about uploads is in the events. `ValidatesUploads`
says that it is what `validateUploadFiles` says, where each request finds a disk of its own. Then a
message that hands files to a page has the validated ones, and no others under the second name
(`uploadPolicy`). A request whose files are not valid is answered at once, so nothing is sent for
it.
-/

namespace BrowserControl.Server

open Encoding Protocol BrowserControl.Core FileSystem Transition

variable {κ : Type*}

/-- What the disk says about uploads is what the policy says. -/
def ValidatesUploads (disks : κ → Disk) (uploadRoots : List String) (s : State κ) : Event κ → Prop
  | .prepare r files => files = validateUploadFiles (disks r) (s.requests r).params uploadRoots
  | _ => True

/-- `params` hand over the validated files of `raw`. -/
def Uploads (disk : Disk) (uploadRoots : List String) (raw params : Object) : Prop :=
  ∃ files, validateUploadFiles disk raw uploadRoots = .ok files ∧
    params.get "files" = some (.arr (files.map .str)) ∧ params.get "paths" = none

/-! ### A request -/

/-- The files are still to be validated. -/
def Phase.isUnprepared : Phase → Bool
  | .prepared => false
  | phase => phase.isEarly

/-- The files are validated, and the request is not answered yet. -/
def Phase.isPrepared : Phase → Bool
  | .prepared => true
  | .executing => true
  | .calling => true
  | .called _ => true
  | _ => false

/-- A preflight is about to be sent, or answered. -/
def Work.isPreflight : Work → Bool
  | .preflight => true
  | .preflighting _ => true
  | _ => false

/-- Two requests for the same files are validated alike. -/
theorem validateUploadFiles_congr {disk : Disk} {uploadRoots : List String} {raw params : Object}
    (h_files : params.get "files" = raw.get "files")
    (h_paths : params.get "paths" = raw.get "paths") :
    validateUploadFiles disk params uploadRoots = validateUploadFiles disk raw uploadRoots := by
  rw [validateUploadFiles, validateUploadFiles, uploadFiles, uploadFiles, h_files, h_paths]

/-- A lease does not change the files. -/
theorem get_bindBrowser {params params' : Object} {tabID : String} {l : Lease}
    (h : bindBrowser params tabID l = .ok params') {k : String} (hk : "browserInstanceId" ≠ k) :
    params'.get k = params.get k := by
  unfold bindBrowser at h
  dsimp only at h
  split at h
  · cases h
  · split at h
    · cases h
      exact Object.get_set_of_ne _ hk _
    · cases h
      rfl

/-- What holds of a request for an upload. -/
structure UploadInv (disk : Disk) (uploadRoots : List String) (q : Request) : Prop where
  unprepared : q.phase.isUnprepared = true →
    q.params.get "files" = q.raw.get "files" ∧ q.params.get "paths" = q.raw.get "paths"
  prepared : q.phase.isPrepared = true → Uploads disk uploadRoots q.raw q.params
  ready : ∀ params, q.work = .ready params → params = q.params
  preflight : q.work.isPreflight = false
  running : ∀ method params, q.handler = .running method params →
    method = q.method ∧ Uploads disk uploadRoots q.raw params

namespace UploadInv

variable {disk : Disk} {uploadRoots : List String} {q : Request}

/-- A request arrives. -/
theorem arrive (method : String) (params : Object) :
    UploadInv disk uploadRoots { method, raw := params, params, phase := .arrived } where
  unprepared _ := ⟨rfl, rfl⟩
  prepared h := by cases h
  ready _ h := by cases h
  preflight := rfl
  running _ _ h := by cases h

/-- A request comes to its next check. -/
theorem setPhase (h : UploadInv disk uploadRoots q) {phase : Phase}
    (h_unprepared : phase.isUnprepared = true → q.phase.isUnprepared = true)
    (h_prepared : phase.isPrepared = true → q.phase.isPrepared = true) :
    UploadInv disk uploadRoots (q.setPhase phase) where
  unprepared h_phase := h.unprepared (h_unprepared h_phase)
  prepared h_phase := h.prepared (h_prepared h_phase)
  ready := h.ready
  preflight := h.preflight
  running := h.running

/-- A request fails. -/
theorem fail (h : UploadInv disk uploadRoots q) (rpcErr : RPCError) :
    UploadInv disk uploadRoots (q.fail rpcErr) :=
  h.setPhase (fun h_phase => by cases h_phase) (fun h_phase => by cases h_phase)

/-- A check that comes before the files are validated. -/
theorem pass (h : UploadInv disk uploadRoots q) {phase : Phase} (rpcErr : Option RPCError)
    (h_phase : q.phase.isUnprepared = true) (h_prepared : phase.isPrepared = false) :
    UploadInv disk uploadRoots (q.pass phase rpcErr) := by
  cases rpcErr with
  | none =>
    refine h.setPhase (fun _ => h_phase) ?_
    rw [h_prepared]
    intro h_true
    cases h_true
  | some rpcErr => exact h.fail rpcErr

/-- The lease is written. -/
theorem renewedBy (h : UploadInv disk uploadRoots q) (h_phase : q.phase.isUnprepared = true)
    (h_work : q.work = .idle) (l : Lease) : UploadInv disk uploadRoots (q.renewedBy l) := by
  unfold Request.renewedBy
  split
  · exact h.fail _
  · rename_i params h_bind
    -- Binding the browser touches neither `files` nor `paths`.
    have h_files := get_bindBrowser h_bind (k := "files") (by decide)
    have h_paths := get_bindBrowser h_bind (k := "paths") (by decide)
    obtain ⟨h_files', h_paths'⟩ := h.unprepared h_phase
    constructor
    · exact fun _ => ⟨h_files.trans h_files', h_paths.trans h_paths'⟩
    · intro h_prepared
      cases h_prepared
    · intro params' h_ready
      rw [h_work] at h_ready
      cases h_ready
    · exact h.preflight
    · exact h.running

/-- **The files are validated**, and the request goes on with these only. -/
theorem prepare (h : UploadInv disk uploadRoots q) (h_phase : q.phase.isUnprepared = true)
    (h_work : q.work = .idle) (h_method : q.method = "fileChooser.setFiles") (lib : Library) :
    UploadInv disk uploadRoots
      (q.prepare lib (validateUploadFiles disk q.params uploadRoots)) := by
  obtain ⟨h_files, h_paths⟩ := h.unprepared h_phase
  rw [validateUploadFiles_congr h_files h_paths, Request.prepare, Request.uploads, if_pos h_method]
  cases h_valid : validateUploadFiles disk q.raw uploadRoots with
  -- a file is refused, and with it the request
  | error rpcErr => exact h.fail rpcErr
  -- the files are replaced by their canonical paths
  | ok files =>
    have h_uploads : Uploads disk uploadRoots q.raw (canonicalFiles q.params files) := by
      refine ⟨files, h_valid, ?_, ?_⟩
      · rw [canonicalFiles, Object.get_erase_of_ne _ (by decide), Object.get_set_self]
      · rw [canonicalFiles, Object.get_erase_self]
    have h_ready : ∀ params, q.work = .ready params → params = canonicalFiles q.params files := by
      rw [h_work]
      intro params h_ready
      cases h_ready
    simp only [Except.map]
    cases checkForwarded q.method (canonicalFiles q.params files) (q.hasEpoch lib) with
    | none =>
      exact {
        unprepared := fun h_phase => by cases h_phase
        prepared := fun _ => h_uploads
        ready := h_ready
        preflight := h.preflight
        running := h.running }
    | some rpcErr =>
      exact {
        unprepared := fun h_phase => by cases h_phase
        prepared := fun h_phase => by cases h_phase
        ready := h_ready
        preflight := h.preflight
        running := h.running }

/-- The function of the request has its parameters, and no preflight. -/
theorem firstWork (h_method : q.method = "fileChooser.setFiles") :
    q.firstWork = .ready q.params := by
  rw [Request.firstWork, h_method]
  rfl

/-- The work goes on. -/
theorem setWork (h : UploadInv disk uploadRoots q) {work : Work}
    (h_ready : ∀ params, work = .ready params → params = q.params)
    (h_preflight : work.isPreflight = false) :
    UploadInv disk uploadRoots { q with work } where
  unprepared := h.unprepared
  prepared := h.prepared
  ready := h_ready
  preflight := h_preflight
  running := h.running

/-- The work begins. -/
theorem run (h : UploadInv disk uploadRoots q) (h_method : q.method = "fileChooser.setFiles") :
    UploadInv disk uploadRoots { q with work := q.firstWork } := by
  rw [firstWork h_method]
  refine h.setWork ?_ rfl
  intro params h_ready
  cases h_ready
  rfl

/-- The request begins, in a queue or without. -/
theorem begin (h : UploadInv disk uploadRoots q) (h_method : q.method = "fileChooser.setFiles")
    (h_phase : q.phase.isPrepared = true) : UploadInv disk uploadRoots q.begin := by
  have h_calling : UploadInv disk uploadRoots (q.setPhase .calling) :=
    h.setPhase (fun h_early => by cases h_early) (fun _ => h_phase)
  unfold Request.begin
  split
  · exact h_calling.run h_method
  · refine h_calling.setWork ?_ rfl
    intro params h_ready
    cases h_ready

/-- **The message** is written while the function works. -/
theorem send (h : UploadInv disk uploadRoots q) (h_phase : q.phase.isPrepared = true)
    (browserInstanceID : String) : UploadInv disk uploadRoots (q.send browserInstanceID) := by
  unfold Request.send
  split
  · rename_i h_work
    have h_none := h.preflight
    rw [h_work] at h_none
    cases h_none
  -- what is sent are the prepared parameters
  · rename_i params h_work
    obtain rfl := h.ready params h_work
    exact {
      unprepared := h.unprepared
      prepared := h.prepared
      ready := fun _ h_ready => by cases h_ready
      preflight := rfl
      running := by
        intro method params h_running
        cases h_running
        exact ⟨rfl, h.prepared h_phase⟩ }
  · exact h

/-- The work is done. -/
theorem done (h : UploadInv disk uploadRoots q) (outcome : Outcome Json) (dispatched : Bool) :
    UploadInv disk uploadRoots { q with work := .done outcome dispatched } :=
  h.setWork (fun _ h_ready => by cases h_ready) rfl

/-- The bridge fails. -/
theorem failBridge (h : UploadInv disk uploadRoots q) (failure : BridgeFailure) :
    UploadInv disk uploadRoots (q.failBridge failure) := by
  unfold Request.failBridge
  split
  · exact h.done _ _
  · exact h.done _ _
  · exact h.done _ _
  · exact h.done _ _
  · exact h

/-- The extension receives the request. -/
theorem receive (h : UploadInv disk uploadRoots q) : UploadInv disk uploadRoots q.receive := by
  unfold Request.receive
  split
  · split
    · rename_i params h_work
      have h_none := h.preflight
      rw [h_work] at h_none
      cases h_none
    · exact h.done _ _
    · exact h
  · exact h

/-- Its handler settles. -/
theorem settle (h : UploadInv disk uploadRoots q) (outcome : Outcome Json) :
    UploadInv disk uploadRoots { q with handler := .settled outcome } where
  unprepared := h.unprepared
  prepared := h.prepared
  ready := h.ready
  preflight := h.preflight
  running _ _ h_running := by cases h_running

end UploadInv

/-! ### Every run -/

section

variable [DecidableEq κ] {lib : Library} {leaseTTL : Duration} {disks : κ → Disk}
  {uploadRoots : List String}

/-- An event of the request itself, after its arrival. -/
theorem uploadInv_of_requestEvent {s : State κ} {e : Event κ} {r : κ} {q : Request}
    (hC : Coherent s r) (he : enabled s e) (h_valid : ValidatesUploads disks uploadRoots s e)
    (h_method : (s.requests r).method = "fileChooser.setFiles")
    (h : UploadInv (disks r) uploadRoots (s.requests r))
    (h_event : requestEvent lib s e = some (r, q))
    (h_arrive : ∀ method params, e ≠ .arrive r method params) :
    UploadInv (disks r) uploadRoots q := by
  have h_takes := he.1
  cases e with
  | arrive d method params =>
    cases h_event
    exact absurd rfl (h_arrive method params)
  | clientGone d =>
    cases h_event
    exact ⟨h.unprepared, h.prepared, h.ready, h.preflight, h.running⟩
  | screen d now =>
    cases h_event
    exact h.pass _ (by rw [takes_screen.mp h_takes]; rfl) rfl
  | getSession d =>
    cases h_event
    exact h.pass _ (by rw [takes_getSession.mp h_takes]; rfl) rfl
  | requireCapability d =>
    cases h_event
    exact h.pass _ (by rw [takes_requireCapability.mp h_takes]; rfl) rfl
  | validateLease d now =>
    cases h_event
    exact h.pass _ (by rw [(takes_validateLease.mp h_takes).1]; rfl) rfl
  | renewLease d now =>
    cases h_event
    have h_phase := takes_renewLease.mp h_takes
    split
    · exact h.fail _
    · refine h.renewedBy (by rw [h_phase]; rfl) ?_ _
      exact (hC.early (by rw [h_phase]; rfl)).2.1
  -- the one step that sets the files
  | prepare d files =>
    cases h_event
    obtain rfl := h_valid
    have h_unprepared : (s.requests r).phase.isUnprepared = true := by
      obtain h_phase | ⟨h_phase, -⟩ := takes_prepare.mp h_takes
      · rw [h_phase]
        rfl
      · rw [h_phase]
        rfl
    have h_early : (s.requests r).phase.isEarly = true := by
      obtain h_phase | ⟨h_phase, -⟩ := takes_prepare.mp h_takes
      · rw [h_phase]
        rfl
      · rw [h_phase]
        rfl
    exact h.prepare h_unprepared (hC.early h_early).2.1 h_method lib
  | execute d now =>
    cases h_event
    refine h.setPhase (fun h_phase => by cases h_phase) fun _ => ?_
    rw [(takes_execute.mp h_takes).1]
    rfl
  | invoke d =>
    cases h_event
    exact h.begin h_method (by rw [takes_invoke.mp h_takes]; rfl)
  | finish d =>
    cases h_event
    obtain ⟨⟨outcome, h_phase⟩, -⟩ := takes_finish.mp h_takes
    refine h.setPhase (fun h_phase => by cases h_phase) fun _ => ?_
    rw [h_phase]
    rfl
  | call d =>
    cases h_event
    exact h.begin h_method (by rw [(takes_call.mp h_takes).1]; rfl)
  | run d =>
    cases h_event
    exact h.run h_method
  | finishCall d =>
    simp only [requestEvent] at h_event
    split at h_event
    · cases h_event
      refine h.setPhase (fun h_phase => by cases h_phase) fun _ => ?_
      rw [(takes_finishCall.mp h_takes).1]
      rfl
    · cases h_event
  -- what the extension gets
  | send d browserInstanceID =>
    cases h_event
    have h_working := h_takes.1
    rw [State.working, Bool.and_eq_true] at h_working
    refine h.send ?_ browserInstanceID
    cases h_phase : (s.requests r).phase <;> simp [h_phase] at h_working
    rfl
  | refuse d failure =>
    cases h_event
    exact h.failBridge failure
  | settle d outcome =>
    cases h_event
    exact h.settle outcome
  | receive d =>
    cases h_event
    exact h.receive
  | abandon d failure =>
    cases h_event
    exact h.failBridge failure
  | respond d =>
    simp only [requestEvent] at h_event
    split at h_event
    · cases h_event
      exact h.setPhase (fun h_phase => by cases h_phase) (fun h_phase => by cases h_phase)
    · split at h_event
      · cases h_event
        exact h.setPhase (fun h_phase => by cases h_phase) (fun h_phase => by cases h_phase)
      · cases h_event
  | command | giveUp | replay | record | enter | callerDone | takeReady | quit | start | leave
  | release => cases h_event

/-- **Step lemma.** -/
theorem uploadInv_next {s : State κ} {e : Event κ} {r : κ} (hC : Coherent s r) (he : enabled s e)
    (h_valid : ValidatesUploads disks uploadRoots s e)
    (h : (s.requests r).method = "fileChooser.setFiles" →
      UploadInv (disks r) uploadRoots (s.requests r))
    (h_method : ((next lib s e).requests r).method = "fileChooser.setFiles") :
    UploadInv (disks r) uploadRoots ((next lib s e).requests r) := by
  by_cases h_request : e.request? = some r
  case neg =>
    rw [requests_next_of_ne lib h_request] at h_method ⊢
    exact h h_method
  cases h_event : requestEvent lib s e with
  | none =>
    rw [requests_next_none h_event] at h_method ⊢
    exact h h_method
  | some p =>
    obtain ⟨d, q⟩ := p
    have h_self := request?_of_requestEvent lib h_event
    rw [h_request] at h_self
    obtain rfl := Option.some.inj h_self
    rw [requests_next_self h_event] at h_method ⊢
    -- a request that arrives has no files yet; another keeps its method
    obtain ⟨method, params, rfl⟩ | h_kept := kept_of_requestEvent h_event
    · cases h_event
      exact .arrive method params
    · rw [h_kept.method] at h_method
      by_cases h_arrive : ∃ method params, e = .arrive r method params
      · obtain ⟨method, params, rfl⟩ := h_arrive
        cases h_event
        exact .arrive method params
      · refine uploadInv_of_requestEvent hC he h_valid h_method (h h_method) h_event ?_
        intro method params h_eq
        exact h_arrive ⟨method, params, h_eq⟩

/-- The invariant holds in every state. -/
theorem uploadInv {s : State κ}
    (hs : ((machine lib leaseTTL).restrict (ValidatesUploads disks uploadRoots)).Reachable s)
    (r : κ)
    (h_method : (s.requests r).method = "fileChooser.setFiles") :
    UploadInv (disks r) uploadRoots (s.requests r) := by
  refine hs.induction (P := fun s => (s.requests r).method = "fileChooser.setFiles" →
    UploadInv (disks r) uploadRoots (s.requests r)) ?_ ?_ h_method
  · intro h_method
    have h_none : "" = "fileChooser.setFiles" := h_method
    exact absurd h_none (by decide)
  · intro s e hs h he
    exact uploadInv_next (coherent hs.of_restrict r) he.1 he.2 h

/-- **Uploads.** For each disk, each list of roots and each request: what `validateUploadFiles`
returns are the files of the request, one for one, each of which is allowed. In every run of the
daemon, a message that hands over files has the files that are validated for its request and no
others. -/
theorem uploadPolicy (lib : Library) (leaseTTL : Duration) (uploadRoots : List String) :
    (∀ (disk : Disk) (params : Object) (files : List String),
      validateUploadFiles disk params uploadRoots = .ok files →
        ∃ inputs : List String, uploadFiles params = some (.arr (inputs.map .str)) ∧
          List.Forall₂ (Allowed disk uploadRoots) inputs files) ∧
      ∀ (disks : κ → Disk) (s : State κ),
        ((machine lib leaseTTL).restrict (ValidatesUploads disks uploadRoots)).Reachable s →
          ∀ r method params, (s.requests r).method = "fileChooser.setFiles" →
            (s.requests r).handler = .running method params →
              method = "fileChooser.setFiles" ∧
                Uploads (disks r) uploadRoots (s.requests r).raw params := by
  constructor
  · intro disk params files h
    exact validateUploadFiles_ok h
  · intro disks s hs r method params h_method h_running
    rw [← h_method]
    exact (uploadInv hs r h_method).running method params h_running

end

/-- A request for an upload, with a link on the path. -/
def uploadParams : Object :=
  .ofFields [("sessionId", .str "ses_1"), ("tabId", .str "7"), ("leaseId", .str "lease_1"),
    ("operationId", .str "op_1"), ("expectedDocumentEpoch", .num one),
    ("paths", .arr [.str "/r/l/../f"])]

/-- The request is checked, -/
def uploadChecks : List (Event ℕ) :=
  opening ++ .command (.grantCapabilities "ses_1" ["files.upload"]) 0 ::
    [.arrive 0 "fileChooser.setFiles" uploadParams, .screen 0 1, .getSession 0,
      .requireCapability 0, .validateLease 0 1, .renewLease 0 1]

/-- and, with its files, sent. -/
def uploadSent : List (Event ℕ) := .execute 0 1 :: entry 0 ++ [.send 0 ""]

/-- A message has been written, and is not answered. -/
def Handler.isRunning : Handler → Bool
  | .running _ _ => true
  | _ => false

/-- The state in which it is sent, with the file that the path stands for. -/
def uploading : State ℕ :=
  (machine sampleLibrary 0).exec (machine sampleLibrary 0).init
    (uploadChecks ++ .prepare 0 (.ok ["/r/f"]) :: uploadSent)

/-- The theorem for a file behind a link. -/
theorem uploadPolicy_of_link :
    ∃ params, (uploading.requests 0).handler = .running "fileChooser.setFiles" params ∧
      Uploads linkedDisk ["/r"] (uploading.requests 0).raw params := by
  have h_runs : (machine sampleLibrary 0).Runs (machine sampleLibrary 0).init
      (uploadChecks ++ .prepare 0 (.ok ["/r/f"]) :: uploadSent) := by decide +kernel
  have h_restrict : ((machine sampleLibrary 0).restrict
      (ValidatesUploads (fun _ => linkedDisk) ["/r"])).Runs (machine sampleLibrary 0).init
        (uploadChecks ++ .prepare 0 (.ok ["/r/f"]) :: uploadSent) := by
    obtain ⟨h_checks, h_prepare, h_sent⟩ := (Machine.runs_append ..).mp h_runs
    refine (Machine.runs_append ..).mpr ⟨h_checks.restrict ?_, ⟨h_prepare, ?_⟩, h_sent.restrict ?_⟩
    · simp [uploadChecks, opening, ValidatesUploads]
    · exact (eq_ok_of_toOption (by decide +kernel)).symm
    · simp [uploadSent, entry, ValidatesUploads]
  have h_policy := (uploadPolicy (κ := ℕ) sampleLibrary 0 ["/r"]).2 (fun _ => linkedDisk) uploading
    h_restrict.reachable 0
  have h_method : (uploading.requests 0).method = "fileChooser.setFiles" := by decide +kernel
  have h_handler : (uploading.requests 0).handler.isRunning = true := by decide +kernel
  -- the handler is running with what was sent
  cases h_running : (uploading.requests 0).handler with
  | idle =>
    rw [h_running] at h_handler
    cases h_handler
  | settled outcome =>
    rw [h_running] at h_handler
    cases h_handler
  | running method params =>
    obtain ⟨rfl, h_uploads⟩ := h_policy method params h_method h_running
    exact ⟨params, rfl, h_uploads⟩

end BrowserControl.Server
