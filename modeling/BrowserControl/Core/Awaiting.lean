import BrowserControl.Core.Confirmations
import Mathlib.Data.Fintype.Basic

/-!
# Operations that await a confirmation

A callback that needs the user asks for a confirmation and returns `CONFIRMATION_REQUIRED`. Its
operation awaits the confirmation from then on, and whoever decides against the confirmation has
to end the wait as well. `Command.Ends` says which commands decide against a confirmation, and
`Command.not_awaits` that these end the wait, but for two (`Command.Finishes`): an approval that
is consumed has nothing to do with the wait, and `RevokeBrowser` ends the waits of the leases of
the Chrome instance only.

Nobody ends the wait of an operation whose callback has not returned, since it does not wait yet
(`Minds`). Whatever is decided against the confirmation in the meantime is lost: the operation
awaits it once its callback returns (`not_coupled_earlyDenial`). Apart from that the operation and
its confirmation stay coupled (`coupled_of_minds`).
-/

namespace BrowserControl.Core

open Encoding Protocol Transition

variable {κ : Type*} [DecidableEq κ]

/-- The confirmation is pending or has been approved. -/
def Confirmation.Stands (c : Confirmation) : Prop := c.status = .pending ∨ c.status = .approved

instance (c : Confirmation) : Decidable c.Stands := inferInstanceAs (Decidable (_ ∨ _))

/-- A command that decides against the confirmation of a waiting operation ends the wait: an
approval that is consumed does not, and a Chrome instance that is revoked does if the session of
the operation has a lease on its tab that is bound to it. -/
def Command.Finishes (m : Manager κ) (op : Operation) : Command → Prop
  | .revokeBrowser browserInstanceID _ =>
    ∃ l ∈ m.leases op.tabID, l.browserInstanceID = browserInstanceID ∧ l.sessionID = op.sessionID
  | .consumeActionConfirmation _ => False
  | _ => True

instance (m : Manager κ) (op : Operation) : ∀ k : Command, Decidable (k.Finishes m op)
  | .revokeBrowser browserInstanceID _ => inferInstanceAs (Decidable (∃ l ∈ m.leases op.tabID,
      l.browserInstanceID = browserInstanceID ∧ l.sessionID = op.sessionID))
  | .consumeActionConfirmation _ => isFalse not_false
  | .openSession .. | .grantCapabilities .. | .markOwnedTab .. | .validateLease .. | .renewLease ..
  | .bindLeaseBrowser .. | .claimTab .. | .releaseTab .. | .revokeTab .. | .closeSession ..
  | .stopAll .. | .cancelOperation .. | .createActionConfirmation ..
  | .createCapabilityConfirmation .. | .resolveConfirmation .. | .authorizeActionConfirmation ..
  | .storeArtifact .. | .deleteArtifact .. | .janitor => isTrue trivial

namespace Manager

variable {m m' : Manager κ} {now : Time} {id : String} {r : κ}

/-- The operation with an id awaits a confirmation. -/
def Awaits (m : Manager κ) (id : String) (r : κ) : Prop :=
  m.operations id = some r ∧ (m.records r).status = .awaitingConfirmation

instance (m : Manager κ) (id : String) (r : κ) : Decidable (m.Awaits id r) :=
  inferInstanceAs (Decidable (_ ∧ _))

omit [DecidableEq κ] in
/-- No critical section makes an operation wait. -/
theorem Frame.awaits (h : Frame m m') (h_awaits : m'.Awaits id r) : m.Awaits id r := by
  refine ⟨h.of_bound h_awaits.1, ?_⟩
  rw [← (h.evolves r).awaiting h_awaits.2]
  exact h_awaits.2

/-- An operation that has got an outcome does not await anything. -/
theorem not_awaits_finishAwaiting {status : OperationStatus} (h : status ≠ .awaitingConfirmation)
    (m : Manager κ) (now : Time) (id : String) (rpcErr : RPCError) (r : κ) :
    ¬ (m.finishAwaitingOperationLocked now id status rpcErr).Awaits id r := by
  rintro ⟨h_bound, h_status⟩
  have h_frame : (m.finishAwaitingOperationLocked now id status rpcErr).operations =
      m.operations := by
    unfold finishAwaitingOperationLocked
    split <;> rfl
  rw [h_frame] at h_bound
  unfold finishAwaitingOperationLocked at h_status
  simp only [h_bound, Function.update_self, Operation.finishAwaiting] at h_status
  split at h_status
  case isTrue => exact h h_status
  case isFalse h_not => exact h_not h_status

/-- Nothing that is cancelled awaits a confirmation. -/
theorem cancelRecord_status (now : Time) (reason : String) (op : Operation) :
    (cancelRecord now reason op).status ≠ .awaitingConfirmation := by
  unfold cancelRecord
  split
  case isTrue h_running =>
    intro h_status
    exact absurd (h_running.symm.trans h_status) (by decide)
  case isFalse =>
    unfold Operation.finishAwaiting
    split
    case isTrue => simp
    case isFalse h_not => exact h_not

omit [DecidableEq κ] in
/-- A registered record that is cancelled does not wait. -/
theorem not_awaits_cancelled (m : Manager κ) (now : Time) (reason : String)
    (h : m'.records r = cancelRecord now reason (m.records r)) :
    ¬ m'.Awaits id r := by
  rintro ⟨-, h_status⟩
  rw [h] at h_status
  exact cancelRecord_status now reason _ h_status

/-- The janitor ends the wait for each confirmation that it expires. -/
theorem not_awaits_expire {c : Confirmation} {cs : List Confirmation} (h_c : c ∈ cs)
    (m : Manager κ) :
    ¬ (cs.foldl (fun m c => (m.resolve now c.confirmationID
      .expired).finishAwaitingOperationLocked now c.operationID .failed
      (confirmationError "CONFIRMATION_EXPIRED" "confirmation expired" c)) m).Awaits
      c.operationID r := by
  -- Along the confirmations that the walk expires.
  induction cs generalizing m with
  | nil => contradiction
  | cons d ds ih =>
    rw [List.foldl_cons]
    rcases List.mem_cons.mp h_c with rfl | h_ds
    · -- The wait is over after this step, and the rest of the walk does not begin it again.
      intro h_awaits
      have h_rest := (frame_foldl_expire now ds (.refl _)).awaits h_awaits
      exact not_awaits_finishAwaiting (by decide) _ now _ _ r h_rest
    · exact ih h_ds _

end Manager

/-- **Decisions end waits.** A command that decides against the confirmation of an operation
leaves the operation not waiting. -/
theorem Command.not_awaits {m : Manager κ} {now : Time} {k : Command}
    {c : Confirmation} {r : κ} (h_c : m.confirmation c.confirmationID = some c)
    (h_ends : k.Ends m now c) (h_id : (m.records r).id = c.operationID)
    (h_session : (m.records r).sessionID = c.sessionID) (h_finishes : k.Finishes m (m.records r)) :
    ¬ (k.run m now).manager.Awaits c.operationID r := by
  intro h_awaits
  obtain ⟨h_bound, h_status⟩ := (k.frame m now).awaits h_awaits
  have h_registered : m.Registered r := by
    rw [Manager.Registered, h_id]
    exact h_bound
  revert h_awaits
  -- Each case shows the branch in which the command finishes the operation.
  cases k with
  | revokeBrowser browserInstanceID reason =>
    obtain ⟨l, h_lease, h_browser, h_holder⟩ := h_finishes
    -- the lease of the tab is one of those that are revoked
    have h_selected : m.selectLeases (fun l => l.browserInstanceID = browserInstanceID)
        (m.records r).tabID = some l := by
      rw [Manager.selectLeases, h_lease, Option.filter_some, if_pos (decide_eq_true h_browser)]
    refine Manager.not_awaits_cancelled m now reason ?_
    simp only [run, Locked.effects, Manager.revokeBrowser, Manager.cancelConfirmations,
      Manager.removeLeases, Manager.cancelLeaseOperations, h_selected]
    exact if_pos ⟨h_registered, h_holder.symm⟩
  | closeSession sessionID reason =>
    obtain ⟨⟨session, h_found, h_open⟩, -, h_same⟩ := h_ends
    have h_found : m.sessions sessionID = some session := h_found
    refine Manager.not_awaits_cancelled m now reason ?_
    simp only [run, Locked.effects, Manager.closeSession, h_found, h_open]
    exact if_pos ⟨h_registered, .inr (h_session.trans h_same), .inl rfl⟩
  | stopAll reason =>
    refine Manager.not_awaits_cancelled m now reason ?_
    exact if_pos ⟨h_registered, .inl rfl, .inl rfl⟩
  | cancelOperation sessionID operationID =>
    obtain ⟨⟨r', h_op, h_waits⟩, -, h_same, -⟩ := h_ends
    have h_op : m.sessionOperation sessionID operationID = some r' := h_op
    have h_finish := Manager.not_awaits_finishAwaiting
      (show OperationStatus.cancelled ≠ .awaitingConfirmation by decide) m now
      operationID (newError codeCancelled "CANCELLED"
        "operation cancelled while awaiting confirmation"
        false (.ofFields [("operationId", .str operationID)])) r
    simp only [run, Locked.effects, Manager.cancelOperation, h_op, h_waits, h_same]
    exact h_finish
  | resolveConfirmation id decision =>
    obtain ⟨h_same, h_pending, h_against⟩ := h_ends
    have h_found : m.confirmations.find? (·.confirmationID = id) = some c := h_same ▸ h_c
    simp only [run, Locked.effects, Manager.resolveConfirmation, h_found]
    rw [if_neg (not_not_intro h_pending)]
    split
    · exact Manager.not_awaits_finishAwaiting (by decide) _ now _ _ r
    -- the confirmation is still in time, so it is denied
    case isFalse h_late =>
      have h_deny : decision = "deny" ∨ decision = "denied" := h_against.resolve_left h_late
      have h_approve : ¬ (decision = "approve" ∨ decision = "approved") := by
        rcases h_deny with rfl | rfl <;> decide
      rw [if_neg h_approve, if_pos h_deny]
      exact Manager.not_awaits_finishAwaiting (by decide) _ now _ _ r
  | authorizeActionConfirmation id sessionID tabID browserInstanceID requestHash =>
    obtain ⟨h_same, h_kind, h_for, h_expired⟩ := h_ends
    have h_found : m.actionConfirmation id = some c :=
      Option.filter_eq_some_iff.mpr ⟨h_same ▸ h_c, decide_eq_true h_kind⟩
    -- the confirmation is for this very action, so only its time can have run out
    have h_exact : ¬ (c.sessionID ≠ sessionID ∨ c.tabID ≠ tabID ∨
        c.browserInstanceID ≠ browserInstanceID ∨ c.requestHash ≠ requestHash) := by
      simpa [Confirmation.isBound, and_assoc] using h_for
    simp only [run, Locked.effects, Manager.authorizeActionConfirmation, h_found]
    rw [if_neg h_exact, if_pos h_expired]
    exact Manager.not_awaits_finishAwaiting (by decide) _ now _ _ r
  | consumeActionConfirmation => exact h_finishes.elim
  -- the janitor expires what is overdue
  | janitor =>
    have h_mem : c ∈ m.confirmations.filter (·.overdue now) :=
      List.mem_filter.mpr ⟨(Manager.confirmation_eq_some h_c).1, h_ends⟩
    exact Manager.not_awaits_expire h_mem _
  | _ => exact h_ends.elim

omit [DecidableEq κ] in
/-- What a command does to a confirmation that stands. -/
theorem Fate.stands {m : Manager κ} {now : Time} {k : Command} {c : Confirmation}
    {after : Option Confirmation} {events : List Confirmation}
    (h : Fate m now k (some c) after events)
    (h_stands : c.Stands) : (∃ c' ∈ after, c'.Stands) ∨ k.Ends m now c := by
  cases h with
  | same => exact .inl ⟨c, rfl, h_stands⟩
  | @resolved _ status _ _ h_ends => exact h_ends.imp_left fun h_status => ⟨_, rfl, .inr h_status⟩
  | approved => exact .inl ⟨_, rfl, .inr rfl⟩
  | consumed _ h_ends => exact .inr h_ends
  | lapsed _ h_ends => exact .inr h_ends

omit [DecidableEq κ] in
/-- What names a confirmation stays. -/
theorem Fate.named {m : Manager κ} {now : Time} {k : Command} {c : Confirmation}
    {after : Option Confirmation} {events : List Confirmation}
    (h : Fate m now k (some c) after events) :
    ∃ c' ∈ after, c'.sessionID = c.sessionID ∧ c'.operationID = c.operationID := by
  cases h <;> exact ⟨_, rfl, rfl, rfl⟩

namespace Awaiting

/-! ### The machine -/

/-- The operations, and what their callbacks have asked for. -/
structure State (κ : Type*) where
  operations : Operations.State κ
  /-- The confirmations that the callback of a call has created. -/
  created : κ → List String := fun _ => []

/-- The callback of the call runs. -/
def inCallback (s : Operations.State κ) (c : κ) : Bool :=
  match s.phase c with
  | .running => true
  | _ => false

/-- What can happen. -/
inductive Event (κ : Type*) where
  | operation (e : Operations.Event κ)
  /-- The callback of a call creates a confirmation for its operation; `id` is its id, if there
  is a new one. -/
  | create (c : κ) (id tabID browserInstanceID requestHash : String) (ttl : Duration) (now : Time)

/-- The request for a confirmation by the callback of a call. -/
def creation (call : Operations.Call κ) (id tabID browserInstanceID requestHash : String)
    (ttl : Duration) : Command :=
  .createActionConfirmation id call.sessionID tabID browserInstanceID call.operationID requestHash
    ttl

/-- When an event can happen. -/
def enabled (s : State κ) : Event κ → Prop
  | .operation e => Operations.enabled s.operations e ∧ Outcomes.NewIDs s.operations e
  | .create c id _ _ _ _ _ =>
    inCallback s.operations c = true ∧
      ∀ d ∈ s.operations.manager.confirmations, d.confirmationID ≠ id

instance (s : State κ) : ∀ e, Decidable (enabled s e)
  | .operation e =>
    inferInstanceAs (Decidable (Operations.enabled s.operations e ∧ Outcomes.NewIDs s.operations e))
  | .create c id _ _ _ _ _ =>
    inferInstanceAs (Decidable (inCallback s.operations c = true ∧
      ∀ d ∈ s.operations.manager.confirmations, d.confirmationID ≠ id))

/-- The confirmations that the callbacks have created, after one has got the answer `result`. -/
def record (created : κ → List String) (c : κ) (result : Except RPCError Confirmation) :
    κ → List String :=
  match result with
  | .error _ => created
  | .ok confirmation => Function.update created c (confirmation.confirmationID :: created c)

/-- What an event does. -/
def next (hash : String → String) (s : State κ) : Event κ → State κ
  | .operation e => { s with operations := Operations.next hash s.operations e }
  | .create c id tabID browserInstanceID requestHash ttl now =>
    let call := s.operations.calls c
    let locked := s.operations.manager.createActionConfirmation now id call.sessionID tabID
      browserInstanceID call.operationID requestHash ttl
    { operations := { s.operations with manager := locked.manager }
      created := record s.created c locked.result }

/-- `ExecuteOperation` calls whose callbacks create confirmations, beside the methods of the
manager. -/
def machine (κ : Type*) [DecidableEq κ] (hash : String → String) (leaseTTL : Duration) :
    Machine (State κ) (Event κ) where
  init := { operations := { manager := .new leaseTTL } }
  enabled := enabled
  next := next hash

instance (hash : String → String) (leaseTTL : Duration) (s : State κ) (e : Event κ) :
    Decidable ((machine κ hash leaseTTL).enabled s e) := inferInstanceAs (Decidable (enabled s e))

/-- The confirmations that the callback of the call has created are pending or approved. -/
def Stand (s : State κ) (r : κ) : Prop :=
  ∀ id ∈ s.created r, ∃ c ∈ s.operations.manager.confirmation id, c.Stands

/-- **Coupling.** While no callback of an operation runs and the operation awaits a
confirmation, the confirmations that its callback has created are pending or approved. -/
def Coupled (s : State κ) : Prop :=
  ∀ id r, s.operations.manager.Awaits id r →
    (∀ c, (s.operations.calls c).operationID = id → inCallback s.operations c = false) →
    Stand s r

/-- The callback of the call has returned `CONFIRMATION_REQUIRED`, and its record is not
completed yet. -/
def HasAsked (s : Operations.State κ) (r : κ) : Prop :=
  match s.phase r with
  | .ended outcome => Operations.Asks outcome
  | _ => False

instance (s : Operations.State κ) (r : κ) : Decidable (HasAsked s r) := by
  unfold HasAsked
  split <;> infer_instance

/-- Nobody decides against a confirmation before the operation awaits it: not while the callback
runs that goes on to ask for it, and not before the outcome of the callback is recorded. And who
decides against it later ends the wait. -/
def Minds (s : State κ) : Event κ → Prop
  | .operation (.finish r outcome) => Operations.Asks outcome → Stand s r
  | .operation (.command k now) =>
    ∀ r, ∀ id ∈ s.created r, ∀ c ∈ s.operations.manager.confirmation id,
      k.Ends s.operations.manager now c →
      ¬ HasAsked s.operations r ∧ (s.operations.manager.Awaits c.operationID r →
        k.Finishes s.operations.manager (s.operations.manager.records r))
  | _ => True

instance (s : State κ) (r : κ) : Decidable (Stand s r) := by
  unfold Stand
  infer_instance

instance [Fintype κ] (s : State κ) : ∀ e, Decidable (Minds s e)
  | .operation (.finish r outcome) =>
    inferInstanceAs (Decidable (Operations.Asks outcome → Stand s r))
  | .operation (.command k now) =>
    inferInstanceAs (Decidable (∀ r, ∀ id ∈ s.created r, ∀ c ∈ s.operations.manager.confirmation id,
      k.Ends s.operations.manager now c →
      ¬ HasAsked s.operations r ∧ (s.operations.manager.Awaits c.operationID r →
        k.Finishes s.operations.manager (s.operations.manager.records r))))
  | .operation (.execute ..) => isTrue trivial
  | .operation (.ctxDone ..) => isTrue trivial
  | .operation (.takeDone _) => isTrue trivial
  | .operation (.invoke _) => isTrue trivial
  | .operation (.record ..) => isTrue trivial
  | .create .. => isTrue trivial

/-! ### The invariant -/

/-- The callback of the call has asked for a confirmation, and its operation is not over. -/
def Waits (s : Operations.State κ) (r : κ) : Prop :=
  HasAsked s r ∨ s.manager.Awaits (s.calls r).operationID r

/-- Where the confirmations of the callbacks stand. -/
structure Inv (hash : String → String) (s : State κ) : Prop where
  operations : Operations.Inv hash s.operations
  unique : s.operations.manager.UniqueIDs
  /-- A callback creates confirmations for its operation. -/
  created : ∀ r, ∀ id ∈ s.created r, (s.operations.phase r).hasRecord = true ∧
    ∃ c ∈ s.operations.manager.confirmation id, c.sessionID = (s.operations.calls r).sessionID ∧
      c.operationID = (s.operations.calls r).operationID
  /-- They stand once the callback has asked for them, as long as its operation awaits them. -/
  stands : ∀ r, Waits s.operations r → Stand s r

variable {hash : String → String} {leaseTTL : Duration} {s : State κ} {e : Event κ}

omit [DecidableEq κ] in
/-- The invariant says that operations and confirmations wait for each other. -/
theorem Inv.coupled (hI : Inv hash s) : Coupled s := by
  intro id r h_awaits _
  refine hI.stands r (.inr ?_)
  rw [(hI.operations.bound id r h_awaits.1).1]
  exact h_awaits

/-! ### Steps -/

/-- An id is bound to the record of a call by the call. -/
theorem bound_of_next {s : Operations.State κ} {e : Operations.Event κ} {r : κ} {id : String}
    (h_call : e.call? ≠ some r)
    (h_bound : (Operations.next hash s e).manager.operations id = some r) :
    s.manager.operations id = some r := by
  cases e with
  -- another call registers itself, never `r`
  | execute c sessionID tabID operationID request now =>
    have h_ne : c ≠ r := fun h_eq => h_call (congrArg some h_eq)
    have h_execute := Operations.executes hash s c now { sessionID, tabID, operationID, request }
    change (s.execute hash c now _).manager.operations id = some r at h_bound
    generalize s.execute hash c now _ = s' at h_execute h_bound
    cases h_execute with
    | admitted =>
      change Function.update s.manager.operations operationID (some c) id = some r at h_bound
      by_cases h_id : id = operationID
      · rw [h_id, Function.update_self, Option.some_inj] at h_bound
        exact absurd h_bound h_ne
      · rwa [Function.update_of_ne h_id] at h_bound
    | _ => exact h_bound
  | takeDone c =>
    simp only [Operations.next] at h_bound
    split at h_bound <;> exact h_bound
  | record c now =>
    simp only [Operations.next] at h_bound
    split at h_bound <;> exact h_bound
  | command k now => exact (k.frame s.manager now).of_bound h_bound
  | _ => exact h_bound

variable (hash) in
/-- A call with a record keeps it, and its arguments. -/
theorem hasRecord_next {s : Operations.State κ} {e : Operations.Event κ}
    (he : Operations.enabled s e) {r : κ} (h_record : (s.phase r).hasRecord = true) :
    ((Operations.next hash s e).phase r).hasRecord = true ∧
      ((Operations.next hash s e).calls r).arguments = (s.calls r).arguments := by
  -- a call with a record is not outside
  have h_entered : s.phase r ≠ .outside := by
    intro h_outside
    rw [h_outside] at h_record
    contradiction
  refine ⟨?_, Operations.arguments_next he h_entered⟩
  by_cases h_call : e.call? = some r
  · cases Operations.moves hash h_call he with
    | executes h_outside => exact absurd h_outside h_entered
    | gaveUp h_wait =>
      rw [h_wait] at h_record
      contradiction
    | replays h_wait =>
      rw [h_wait] at h_record
      contradiction
    | proceeds _ h_rec h_next =>
      rw [Operations.State.phase, h_next]
      exact h_rec
  · rw [Operations.State.phase, Operations.calls_next_of_ne hash s h_call]
    exact h_record

/-- A call with a record begins to wait only when its callback asks for a confirmation. -/
theorem waits_of_next {s : Operations.State κ} {e : Operations.Event κ}
    (he : Operations.enabled s e) {r : κ} (h_record : (s.phase r).hasRecord = true)
    (h : Waits (Operations.next hash s e) r) :
    Waits s r ∨ ∃ outcome, e = .finish r outcome ∧ Operations.Asks outcome := by
  have h_id : ((Operations.next hash s e).calls r).operationID = (s.calls r).operationID :=
    congrArg (·.2.2.1) (hasRecord_next hash he h_record).2
  unfold Waits HasAsked at h
  rw [h_id] at h
  -- A step of the call itself: only `finish` can make it wait.
  by_cases h_call : e.call? = some r
  · cases e with
    | execute c =>
      cases h_call
      rw [Operations.enabled_execute.mp he] at h_record
      contradiction
    | ctxDone c message =>
      cases h_call
      obtain ⟨r', h_wait⟩ := Operations.enabled_ctxDone.mp he
      rw [h_wait] at h_record
      contradiction
    | takeDone c =>
      cases h_call
      obtain ⟨r', h_wait, -⟩ := Operations.enabled_takeDone.mp he
      rw [h_wait] at h_record
      contradiction
    | invoke c =>
      cases h_call
      rw [Operations.next, Operations.State.setPhase, Operations.State.phase_setCall_self] at h
      exact .inl (.inr (h.resolve_left fun h_false => h_false))
    | finish c outcome =>
      cases h_call
      rw [Operations.next, Operations.State.finish, Operations.State.setPhase,
        Operations.State.phase_setCall_self] at h
      rcases h with h_asks | ⟨h_bound, h_status⟩
      · exact .inr ⟨outcome, rfl, h_asks⟩
      · -- Only the context of the run is cancelled.
        rw [Operations.State.setCall_manager, Operations.State.records_setRecord_self] at h_status
        exact .inl (.inr ⟨h_bound, h_status⟩)
    | record c now =>
      cases h_call
      obtain ⟨outcome, h_phase⟩ := Operations.enabled_record.mp he
      simp only [Operations.next, h_phase] at h
      rw [Operations.State.record, Operations.State.setPhase,
        Operations.State.phase_setCall_self] at h
      obtain ⟨-, h_status⟩ := h.resolve_left fun h_false => h_false
      rw [Operations.State.setCall_manager, Operations.State.records_setRecord_self] at h_status
      -- the outcome that is recorded asked for the confirmation already
      have h_asked : HasAsked s r := by
        unfold HasAsked
        rw [h_phase]
        exact Operations.statusOf_awaiting.mp h_status
      exact .inl (.inl h_asked)
    | command k now => contradiction
  -- A step of another call, or a command.
  · have h_phase : (Operations.next hash s e).phase r = s.phase r :=
      congrArg (·.phase) (Operations.calls_next_of_ne hash s h_call)
    rw [h_phase] at h
    by_cases h_command : ∃ k now, e = .command k now
    · obtain ⟨k, now, rfl⟩ := h_command
      exact .inl (h.imp_right (k.frame s.manager now).awaits)
    · have h_same := (Operations.records_next_of_ne hash s h_call).resolve_right h_command
      rw [Manager.Awaits, h_same] at h
      exact .inl (h.imp_right (And.imp_left (bound_of_next h_call)))

/-- A command keeps the confirmations of the callbacks, and those that are awaited stand if it
minds the waits. -/
theorem Inv.command (hI : Inv hash s) {k : Command} (now : Time)
    (h_new : k.NewID s.operations.manager) (h_minds : Minds s (.operation (.command k now))) :
    Inv hash { s with operations := Operations.next hash s.operations (.command k now) } where
  operations := hI.operations.commands (k.frame s.operations.manager now)
  unique := Command.uniqueIDs hI.unique now h_new
  created r id h_id := by
    obtain ⟨h_record, c, h_c, h_session, h_operation⟩ := hI.created r id h_id
    have h_fate := Command.fate hI.unique now h_new id
    rw [show s.operations.manager.confirmation id = some c from h_c] at h_fate
    obtain ⟨c', h_c', h_session', h_operation'⟩ := h_fate.named
    exact ⟨h_record, c', h_c', h_session'.trans h_session, h_operation'.trans h_operation⟩
  stands r h_waits id h_id := by
    have h_frame := k.frame s.operations.manager now
    have h_before : Waits s.operations r := h_waits.imp_right h_frame.awaits
    obtain ⟨c, h_c, h_stands⟩ := hI.stands r h_before id h_id
    have h_fate := Command.fate hI.unique now h_new id
    rw [show s.operations.manager.confirmation id = some c from h_c] at h_fate
    refine (h_fate.stands h_stands).resolve_right fun h_ends => ?_
    -- The command decides against the confirmation, so the operation awaits it already and the
    -- command ends the wait.
    obtain ⟨h_not, h_finishes⟩ := h_minds r id h_id c h_c h_ends
    obtain ⟨h_record, c₀, h_c₀, h_session, h_operation⟩ := hI.created r id h_id
    rw [Option.mem_unique h_c₀ h_c] at h_session h_operation
    obtain ⟨h_describes, -⟩ := hI.operations.describes r h_record
    have h_awaits := h_before.resolve_left h_not
    rw [← h_operation] at h_awaits
    have h_after := h_waits.resolve_left h_not
    have h_found : s.operations.manager.confirmation c.confirmationID = some c := by
      rw [(Manager.confirmation_eq_some h_c).2]
      exact h_c
    refine Command.not_awaits h_found h_ends (h_describes.id.trans h_operation.symm)
      (h_describes.session.trans h_session.symm) (h_finishes h_awaits) ?_
    rw [h_operation]
    exact h_after

omit [DecidableEq κ] in
/-- What a callback gets when it asks for a confirmation: it is pending, and for its operation. -/
theorem createActionConfirmation_ok {m : Manager κ} (h_unique : m.UniqueIDs) {now : Time}
    {id sessionID tabID browserInstanceID operationID requestHash : String} {ttl : Duration}
    {c : Confirmation}
    (h : (m.createActionConfirmation now id sessionID tabID browserInstanceID operationID
      requestHash ttl).result = .ok c) :
    (m.createActionConfirmation now id sessionID tabID browserInstanceID operationID requestHash
      ttl).manager.confirmation c.confirmationID = some c ∧
      c.status = .pending ∧ c.sessionID = sessionID ∧ c.operationID = operationID := by
  unfold Manager.createActionConfirmation at h ⊢
  cases h_session : m.openSessionLocked sessionID with
  | error rpcErr =>
    simp only [h_session] at h
    contradiction
  | ok session =>
    simp only [h_session] at h ⊢
    unfold Manager.createConfirmationLocked at h ⊢
    split at h
    case h_1 existing h_existing =>
      -- One for the same thing is there.
      cases h
      have h_mem := List.mem_of_find?_eq_some h_existing
      have h_same := List.find?_some h_existing
      simp only [Manager.sameRequest, Bool.and_eq_true, decide_eq_true_eq] at h_same
      obtain ⟨⟨⟨⟨⟨⟨h_pending, -⟩, h_holder⟩, -⟩, -⟩, h_operation⟩, -⟩ := h_same
      exact ⟨h_unique.confirmation_eq h_mem, h_pending, h_holder, h_operation⟩
    case h_2 =>
      cases h
      exact ⟨List.find?_cons_of_pos (decide_eq_true rfl), rfl, rfl, rfl⟩

/-- A confirmation is created for the operation whose callback runs. -/
theorem Inv.create (hI : Inv hash s) {c : κ} {id tabID browserInstanceID requestHash : String}
    {ttl : Duration} {now : Time}
    (he : enabled s (.create c id tabID browserInstanceID requestHash ttl now)) :
    Inv hash (next hash s (.create c id tabID browserInstanceID requestHash ttl now)) := by
  obtain ⟨h_running, h_fresh⟩ := he
  have h_running : s.operations.phase c = .running := by
    unfold inCallback at h_running
    split at h_running
    · assumption
    · contradiction
  let call := s.operations.calls c
  have h_new : (creation call id tabID browserInstanceID requestHash ttl).NewID
      s.operations.manager := by
    intro id' h_id' d h_d
    rw [← Option.some_inj.mp (Option.mem_toList.mp h_id')]
    exact h_fresh d h_d
  -- Asking for a confirmation decides against none.
  have h_asked := hI.command now h_new fun _ _ _ _ _ h_ends => h_ends.elim
  -- Where the request is refused, nothing is remembered.
  cases h_result : (s.operations.manager.createActionConfirmation now id call.sessionID tabID
      browserInstanceID call.operationID requestHash ttl).result with
  | error rpcErr =>
    have h_next : next hash s (.create c id tabID browserInstanceID requestHash ttl now) =
        { s with
          operations := Operations.next hash s.operations
            (.command (creation call id tabID browserInstanceID requestHash ttl) now) } := by
      simp only [next]
      rw [h_result]
      rfl
    rw [h_next]
    exact h_asked
  | ok confirmation =>
    obtain ⟨h_found, h_pending, h_session, h_operation⟩ :=
      createActionConfirmation_ok hI.unique h_result
    have h_created :
        (next hash s (.create c id tabID browserInstanceID requestHash ttl now)).created =
          Function.update s.created c (confirmation.confirmationID :: s.created c) := by
      simp only [next]
      rw [h_result]
      rfl
    -- Otherwise the call remembers the confirmation, which is pending.
    refine ⟨h_asked.operations, h_asked.unique, ?_, ?_⟩
    · intro r id' h_id'
      rw [h_created] at h_id'
      by_cases h_r : r = c
      · subst h_r
        rw [Function.update_self] at h_id'
        rcases List.mem_cons.mp h_id' with rfl | h_old
        · refine ⟨?_, confirmation, h_found, h_session, h_operation⟩
          have h_phase : (s.operations.phase r).hasRecord = true := by
            rw [h_running]
            rfl
          exact h_phase
        · exact h_asked.created r id' h_old
      · rw [Function.update_of_ne h_r] at h_id'
        exact h_asked.created r id' h_id'
    · intro r h_waits id' h_id'
      rw [h_created] at h_id'
      by_cases h_r : r = c
      · subst h_r
        rw [Function.update_self] at h_id'
        rcases List.mem_cons.mp h_id' with rfl | h_old
        · exact ⟨confirmation, h_found, .inl h_pending⟩
        · exact h_asked.stands r h_waits id' h_old
      · rw [Function.update_of_ne h_r] at h_id'
        exact h_asked.stands r h_waits id' h_id'

/-- Steps that mind the answer keep the invariant. -/
theorem Inv.next (hI : Inv hash s) (he : enabled s e) (h_minds : Minds s e) :
    Inv hash (next hash s e) := by
  cases e with
  | create => exact hI.create he
  | operation e =>
    -- only commands touch confirmations
    by_cases h_command : ∀ k now, e ≠ .command k now
    · have h_same : (Operations.next hash s.operations e).manager.confirmations =
          s.operations.manager.confirmations := Outcomes.confirmations_next h_command
      have h_found : ∀ id, (Operations.next hash s.operations e).manager.confirmation id =
          s.operations.manager.confirmation id := fun id =>
        congrArg (List.find? fun c : Confirmation => c.confirmationID = id) h_same
      refine ⟨hI.operations.step he.1, Outcomes.uniqueIDs_next hI.unique he.2, ?_, ?_⟩
      · intro r id h_id
        obtain ⟨h_record, c, h_c, h_session, h_operation⟩ := hI.created r id h_id
        obtain ⟨h_record', h_arguments⟩ := hasRecord_next hash he.1 h_record
        refine ⟨h_record', c, (h_found id).trans h_c, ?_, ?_⟩
        · exact h_session.trans (congrArg (·.1) h_arguments).symm
        · exact h_operation.trans (congrArg (·.2.2.1) h_arguments).symm
      · intro r h_waits id h_id
        have h_record := (hI.created r id h_id).1
        have h_stand : Stand s r := by
          rcases waits_of_next he.1 h_record h_waits with h_before | ⟨outcome, rfl, h_asks⟩
          · exact hI.stands r h_before
          · exact h_minds h_asks
        obtain ⟨c, h_c, h_stands⟩ := h_stand id h_id
        exact ⟨c, (h_found id).trans h_c, h_stands⟩
    · push Not at h_command
      obtain ⟨k, now, rfl⟩ := h_command
      exact hI.command _ he.2 h_minds

omit [DecidableEq κ] in
theorem Inv.init : Inv hash ({ operations := { manager := .new leaseTTL } } : State κ) where
  operations := .init
  unique := List.nodup_nil
  created r id h := by contradiction
  stands r _ id h := by contradiction

/-- **Confirmations and their operations.** In every run whose commands mind the waits, an
operation that awaits a confirmation awaits one that is pending or approved. -/
theorem coupled_of_minds (h : ((machine κ hash leaseTTL).restrict Minds).Reachable s) :
    Coupled s := by
  have h_inv : Inv hash s := by
    refine h.induction (P := Inv hash) Inv.init ?_
    intro s e _ hI h_enabled
    exact hI.next h_enabled.1 h_enabled.2
  exact h_inv.coupled

/-- An error that asks for a confirmation. -/
def confirmationRequired : RPCError :=
  newError codeConfirmationNeeded "CONFIRMATION_REQUIRED" "trusted approval is required" true .empty

/-- The callback of the first call creates a confirmation. -/
def asked : List (Event (Fin 2)) :=
  [.operation (.command (.openSession "ses_1" "" "") 0),
    .operation (.execute 0 "ses_1" "tab_7" "op_1" .empty 0), .operation (.invoke 0),
    .create 0 "confirm_1" "tab_7" "browser_1" "abc" minute second]

/-- It returns, and the user approves the action. The call is repeated and performs it. -/
def performed : List (Event (Fin 2)) :=
  [.operation (.finish 0 (.error confirmationRequired)), .operation (.record 0 second),
    .operation (.command (.resolveConfirmation "confirm_1" "approve") (2 * second)),
    .operation (.execute 1 "ses_1" "tab_7" "op_1" .empty (3 * second)), .operation (.invoke 1),
    .operation (.command (.authorizeActionConfirmation "confirm_1" "ses_1" "tab_7"
      "browser_1" "abc")
      (3 * second)),
    .operation (.command (.consumeActionConfirmation "confirm_1") (3 * second)),
    .operation (.finish 1 (.ok .null)), .operation (.record 1 (4 * second))]

/-- The operation and its confirmation are coupled when the action has been performed. -/
theorem coupled_of_minds_performed :
    Coupled ((machine (Fin 2) id 0).exec (machine (Fin 2) id 0).init (asked ++ performed)) := by
  have h_runs : ((machine (Fin 2) id 0).restrict Minds).Runs (machine (Fin 2) id 0).init
      (asked ++ performed) := by decide
  exact coupled_of_minds h_runs.reachable

/-- The user denies the action before the callback returns. -/
def deniedEarly : List (Event (Fin 2)) :=
  [.operation (.command (.resolveConfirmation "confirm_1" "deny") (2 * second)),
    .operation (.finish 0 (.error confirmationRequired)), .operation (.record 0 (3 * second))]

/-- A denial that comes before the callback returns is lost: the operation awaits the
confirmation that was denied. -/
theorem not_coupled_earlyDenial : ¬ ∀ s, (machine (Fin 2) id 0).Reachable s → Coupled s := by
  intro h
  let s := (machine (Fin 2) id 0).exec (machine (Fin 2) id 0).init (asked ++ deniedEarly)
  have h_runs : (machine (Fin 2) id 0).Runs (machine (Fin 2) id 0).init (asked ++ deniedEarly) := by
    decide
  have h_awaits : s.operations.manager.Awaits "op_1" 0 ∧
      (∀ c, inCallback s.operations c = false) ∧ s.created 0 = ["confirm_1"] ∧
      (s.operations.manager.confirmation "confirm_1").map (·.status) = some .denied := by
    decide
  obtain ⟨h_op, h_idle, h_created, h_denied⟩ := h_awaits
  have h_mem : "confirm_1" ∈ s.created 0 := by
    rw [h_created]
    exact List.mem_singleton.mpr rfl
  -- In a coupled state the confirmation would still stand, but it has been denied.
  obtain ⟨c, h_c, h_stands⟩ := h s h_runs.reachable "op_1" 0 h_op (fun c _ => h_idle c) _ h_mem
  rw [show s.operations.manager.confirmation "confirm_1" = some c from h_c, Option.map_some,
    Option.some_inj] at h_denied
  unfold Confirmation.Stands at h_stands
  rw [h_denied] at h_stands
  exact absurd h_stands (by decide)

end Awaiting

end BrowserControl.Core
