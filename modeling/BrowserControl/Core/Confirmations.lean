import BrowserControl.Core.OperationsInvariant
import Mathlib.Data.List.Nodup

/-!
# The outcome of a confirmation

Eight methods decide confirmations, and each has its own guard. `Command.resolvedEvents` lists
the `confirmation.resolved` events that a method emits, each with the confirmation it carries,
and `Fate` what a method may do to the confirmation with an id (`Command.fate`).

All of them decide only what is pending, or consume what is approved, but for one:
`AuthorizeActionConfirmation` looks at the expiry of a confirmation before it looks at its
status. A confirmation that has been decided expires once more when it is presented too late,
and is announced again (`Command.Lapses`). In the runs in which nobody presents one so late,
outcomes are final (`outcomesFinal_of_prompt`).
-/

namespace BrowserControl.Core

open Encoding Protocol Transition

variable {κ : Type*} [DecidableEq κ]

/-- A confirmation that is given a status. -/
def Confirmation.resolve (now : Time) (status : ConfirmationStatus) (c : Confirmation) :
    Confirmation :=
  { c with status, resolvedAt := some now }

/-- The outcome has been decided, and nothing is left to be done. -/
def Confirmation.Final (c : Confirmation) : Prop :=
  c.status = .denied ∨ c.status = .cancelled ∨ c.status = .expired ∨ c.status = .consumed

/-- The confirmation is for exactly this action. -/
def Confirmation.isBound (c : Confirmation)
    (sessionID tabID browserInstanceID requestHash : String) : Bool :=
  c.sessionID = sessionID && c.tabID = tabID && c.browserInstanceID = browserInstanceID &&
    c.requestHash = requestHash

namespace Manager

/-- The confirmation with an id. -/
def confirmation (m : Manager κ) (id : String) : Option Confirmation :=
  m.confirmations.find? (·.confirmationID = id)

/-! ### The events of the methods -/

/-- The events of a loop that cancels the pending confirmations that `p` selects. -/
def cancelEvents (m : Manager κ) (now : Time) (p : Confirmation → Bool) : List Confirmation :=
  (m.confirmations.filter fun c => c.status = .pending && p c).map (·.resolve now .cancelled)

/-- `CloseSession`; only a session that is open is closed. -/
def closeSessionEvents (m : Manager κ) (now : Time) (sessionID : String) : List Confirmation :=
  match m.sessions sessionID with
  | none => []
  | some session =>
    if session.status ≠ .open then [] else m.cancelEvents now fun c => c.sessionID = sessionID

/-- `CancelOperation`; the confirmations of an operation are cancelled only while it waits. -/
def cancelOperationEvents (m : Manager κ) (now : Time) (sessionID operationID : String) :
    List Confirmation :=
  match m.sessionOperation sessionID operationID with
  | none => []
  | some r =>
    match (m.records r).status with
    | .awaitingConfirmation =>
      m.cancelEvents now fun c => c.operationID = operationID && c.sessionID = sessionID
    | _ => []

/-- `ResolveConfirmation`. -/
def resolveConfirmationEvents (m : Manager κ) (now : Time) (id decision : String) :
    List Confirmation :=
  match m.confirmations.find? (·.confirmationID = id) with
  | none => []
  | some c =>
    if c.status ≠ .pending then []
    -- An answer that comes late resolves to `expired`, whatever it says.
    else if c.expiresAt < now then [c.resolve now .expired]
    else if decision = "approve" ∨ decision = "approved" then
      match c.kind with
      | .action => [c.resolve now .approved]
      | .capability =>
        match m.openSessionLocked c.sessionID with
        -- A capability cannot be granted to a session that is not open.
        | .error _ => []
        | .ok _ => [c.resolve now .approved]
    else if decision = "deny" ∨ decision = "denied" then [c.resolve now .denied]
    else []

/-- `AuthorizeActionConfirmation`: a confirmation for this action that has expired. -/
def authorizeActionConfirmationEvents (m : Manager κ) (now : Time)
    (id sessionID tabID browserInstanceID requestHash : String) : List Confirmation :=
  match m.actionConfirmation id with
  | none => []
  | some c =>
    if c.isBound sessionID tabID browserInstanceID requestHash ∧ c.expiresAt ≤ now then
      [c.resolve now .expired]
    else []

/-- One tick of the janitor. -/
def janitorEvents (m : Manager κ) (now : Time) : List Confirmation :=
  (m.confirmations.filter (·.overdue now)).map (·.resolve now .expired)

end Manager

/-- The `confirmation.resolved` events of a command. -/
def Command.resolvedEvents (m : Manager κ) (now : Time) : Command → List Confirmation
  | .revokeBrowser browserInstanceID _ =>
    m.cancelEvents now fun c => c.browserInstanceID = browserInstanceID
  | .closeSession sessionID _ => m.closeSessionEvents now sessionID
  | .stopAll _ => m.cancelEvents now fun _ => true
  | .cancelOperation sessionID operationID => m.cancelOperationEvents now sessionID operationID
  | .resolveConfirmation id decision => m.resolveConfirmationEvents now id decision
  | .authorizeActionConfirmation id sessionID tabID browserInstanceID requestHash =>
    m.authorizeActionConfirmationEvents now id sessionID tabID browserInstanceID requestHash
  | .janitor => m.janitorEvents now
  | _ => []

/-- An authorization finds that its confirmation has expired, and the confirmation is not
pending. -/
def Command.Lapses (m : Manager κ) (now : Time) : Command → Prop
  | .authorizeActionConfirmation id sessionID tabID browserInstanceID requestHash =>
    ∃ c ∈ m.actionConfirmation id, c.isBound sessionID tabID browserInstanceID requestHash ∧
      c.expiresAt ≤ now ∧ c.status ≠ .pending
  | _ => False

instance (m : Manager κ) (now : Time) : ∀ k : Command, Decidable (k.Lapses m now)
  | .authorizeActionConfirmation id sessionID tabID browserInstanceID requestHash =>
    inferInstanceAs (Decidable (∃ c ∈ m.actionConfirmation id,
      c.isBound sessionID tabID browserInstanceID requestHash ∧ c.expiresAt ≤ now ∧
        c.status ≠ .pending))
  | .openSession .. | .grantCapabilities .. | .markOwnedTab .. | .validateLease .. | .renewLease ..
  | .bindLeaseBrowser .. | .claimTab .. | .releaseTab .. | .revokeTab .. | .revokeBrowser ..
  | .closeSession .. | .stopAll .. | .cancelOperation .. | .createActionConfirmation ..
  | .createCapabilityConfirmation .. | .resolveConfirmation .. | .consumeActionConfirmation ..
  | .storeArtifact .. | .deleteArtifact .. | .janitor => isFalse not_false

/-- A command denies, expires, cancels or consumes the confirmation `c`. -/
def Command.Ends (m : Manager κ) (now : Time) (c : Confirmation) : Command → Prop
  | .revokeBrowser browserInstanceID _ =>
    c.status = .pending ∧ c.browserInstanceID = browserInstanceID
  | .closeSession sessionID _ =>
    (∃ session ∈ m.sessions sessionID, session.status = .open) ∧
      c.status = .pending ∧ c.sessionID = sessionID
  | .stopAll _ => c.status = .pending
  | .cancelOperation sessionID operationID =>
    (∃ r ∈ m.sessionOperation sessionID operationID,
      (m.records r).status = .awaitingConfirmation) ∧
      c.status = .pending ∧ c.operationID = operationID ∧ c.sessionID = sessionID
  | .resolveConfirmation id decision =>
    c.confirmationID = id ∧ c.status = .pending ∧
      (c.expiresAt < now ∨ decision = "deny" ∨ decision = "denied")
  | .authorizeActionConfirmation id sessionID tabID browserInstanceID requestHash =>
    c.confirmationID = id ∧ c.kind = .action ∧
      -- Here a confirmation that was denied becomes expired too.
      c.isBound sessionID tabID browserInstanceID requestHash ∧ c.expiresAt ≤ now
  | .consumeActionConfirmation id =>
    c.confirmationID = id ∧ c.kind = .action ∧ c.status = .approved
  | .janitor => c.overdue now
  | _ => False

instance (m : Manager κ) (now : Time) (c : Confirmation) : ∀ k : Command, Decidable (k.Ends m now c)
  | .revokeBrowser browserInstanceID _ => inferInstanceAs
      (Decidable (c.status = .pending ∧ c.browserInstanceID = browserInstanceID))
  | .closeSession sessionID _ => inferInstanceAs
      (Decidable ((∃ session ∈ m.sessions sessionID, session.status = .open) ∧
        c.status = .pending ∧ c.sessionID = sessionID))
  | .stopAll _ => inferInstanceAs (Decidable (c.status = .pending))
  | .cancelOperation sessionID operationID => inferInstanceAs
      (Decidable ((∃ r ∈ m.sessionOperation sessionID operationID,
        (m.records r).status = .awaitingConfirmation) ∧
        c.status = .pending ∧ c.operationID = operationID ∧ c.sessionID = sessionID))
  | .resolveConfirmation id decision => inferInstanceAs
      (Decidable (c.confirmationID = id ∧ c.status = .pending ∧
        (c.expiresAt < now ∨ decision = "deny" ∨ decision = "denied")))
  | .authorizeActionConfirmation id sessionID tabID browserInstanceID requestHash => inferInstanceAs
      (Decidable (c.confirmationID = id ∧ c.kind = .action ∧
        c.isBound sessionID tabID browserInstanceID requestHash ∧ c.expiresAt ≤ now))
  | .consumeActionConfirmation id => inferInstanceAs
      (Decidable (c.confirmationID = id ∧ c.kind = .action ∧ c.status = .approved))
  | .janitor => inferInstanceAs (Decidable (c.overdue now))
  | .openSession .. | .grantCapabilities .. | .markOwnedTab .. | .validateLease .. | .renewLease ..
  | .bindLeaseBrowser .. | .claimTab .. | .releaseTab .. | .revokeTab ..
  | .createActionConfirmation .. | .createCapabilityConfirmation .. | .storeArtifact ..
  | .deleteArtifact .. => isFalse not_false

/-! ### What a command does to a confirmation -/

/-- **What a command does to the confirmation with an id**, before and after it, and the events
it emits for it. -/
inductive Fate (m : Manager κ) (now : Time) (k : Command) :
    Option Confirmation → Option Confirmation → List Confirmation → Prop where
  | same (c : Option Confirmation) : Fate m now k c c []
  | made {c : Confirmation} (h_pending : c.status = .pending) : Fate m now k none (some c) []
  | resolved {c : Confirmation} {status : ConfirmationStatus} (h_pending : c.status = .pending)
      (h_status : status ≠ .pending) (h_ends : status = .approved ∨ k.Ends m now c) :
      Fate m now k (some c) (some (c.resolve now status)) [c.resolve now status]
  /-- A capability is approved for a session that turns out to be closed. -/
  | approved {c : Confirmation} (h_pending : c.status = .pending) :
      Fate m now k (some c) (some { c with status := .approved }) []
  | consumed {c : Confirmation} (h_approved : c.status = .approved) (h_ends : k.Ends m now c) :
      Fate m now k (some c) (some { c with status := .consumed }) []
  | lapsed {c : Confirmation} (h_lapses : k.Lapses m now) (h_ends : k.Ends m now c) :
      Fate m now k (some c) (some (c.resolve now .expired)) [c.resolve now .expired]

/-- Each confirmation has an id of its own. -/
def Manager.UniqueIDs (m : Manager κ) : Prop := (m.confirmations.map (·.confirmationID)).Nodup

/-- The id of a new confirmation is new. -/
def Command.NewID (m : Manager κ) (k : Command) : Prop :=
  ∀ id ∈ k.confirmationID.toList, ∀ c ∈ m.confirmations, c.confirmationID ≠ id

instance (m : Manager κ) (k : Command) : Decidable (k.NewID m) := by
  unfold Command.NewID
  infer_instance

/-- The events that are about the confirmation with an id. -/
def eventsFor (id : String) (events : List Confirmation) : List Confirmation :=
  events.filter (·.confirmationID = id)

@[simp] theorem eventsFor_nil (id : String) : eventsFor id [] = [] := rfl

@[simp] theorem eventsFor_append (id : String) (es fs : List Confirmation) :
    eventsFor id (es ++ fs) = eventsFor id es ++ eventsFor id fs := List.filter_append ..

namespace Manager

variable {m : Manager κ} {now : Time} {k : Command} {id : String}

omit [DecidableEq κ] in
/-- A confirmation that is found has the id that was looked for. -/
theorem confirmation_eq_some {c : Confirmation} (h : m.confirmation id = some c) :
    c ∈ m.confirmations ∧ c.confirmationID = id := by
  have h_id := List.find?_some (p := fun c : Confirmation => c.confirmationID = id) h
  exact ⟨List.mem_of_find?_eq_some h, of_decide_eq_true h_id⟩

omit [DecidableEq κ] in
/-- The confirmations with an id are the one that is found. -/
theorem UniqueIDs.filter_eq (h : m.UniqueIDs) (id : String) :
    m.confirmations.filter (·.confirmationID = id) = (m.confirmation id).toList := by
  unfold UniqueIDs at h
  unfold confirmation
  -- Induction on the list, whose head has an id that does not come again.
  generalize m.confirmations = cs at h ⊢
  induction cs with
  | nil => rfl
  | cons c cs ih =>
    rw [List.map_cons, List.nodup_cons] at h
    by_cases h_id : c.confirmationID = id
    · -- No other confirmation has this id.
      have h_rest : cs.filter (·.confirmationID = id) = [] := by
        refine List.filter_eq_nil_iff.mpr fun d h_d h_same => h.1 ?_
        exact List.mem_map.mpr ⟨d, h_d, (of_decide_eq_true h_same).trans h_id.symm⟩
      simp [h_id, h_rest]
    · simpa [h_id] using ih h.2

omit [DecidableEq κ] in
/-- Every confirmation is found under its id. -/
theorem UniqueIDs.confirmation_eq (h : m.UniqueIDs) {c : Confirmation} (h_c : c ∈ m.confirmations) :
    m.confirmation c.confirmationID = some c := by
  cases h_found : m.confirmation c.confirmationID with
  | none => exact absurd (decide_eq_true rfl) (List.find?_eq_none.mp h_found c h_c)
  | some d =>
    obtain ⟨h_d, h_id⟩ := confirmation_eq_some h_found
    rw [List.inj_on_of_nodup_map h h_d h_c h_id]

omit [DecidableEq κ] in
/-- The events of a loop over the confirmations, for one id. -/
theorem UniqueIDs.eventsFor_map (h : m.UniqueIDs) (id : String) (p : Confirmation → Bool)
    (status : ConfirmationStatus) :
    eventsFor id ((m.confirmations.filter p).map (·.resolve now status)) =
      (((m.confirmation id).filter p).map (·.resolve now status)).toList := by
  calc
    eventsFor id ((m.confirmations.filter p).map (·.resolve now status))
    _ = ((m.confirmations.filter p).filter (·.confirmationID = id)).map (·.resolve now status) :=
      List.filter_map
    _ = ((m.confirmations.filter (·.confirmationID = id)).filter p).map (·.resolve now status) := by
      rw [List.filter_filter, List.filter_filter]
      simp only [Bool.and_comm]
    _ = (((m.confirmation id).filter p).map (·.resolve now status)).toList := by
      rw [h.filter_eq id]
      cases m.confirmation id with
      | none => rfl
      | some c => cases h_p : p c <;> simp [Option.filter, h_p]

omit [DecidableEq κ] in
/-- A confirmation after all of them were changed by `f`, which keeps their ids. -/
theorem confirmation_map {m' : Manager κ} {f : Confirmation → Confirmation}
    (h_id : ∀ c, (f c).confirmationID = c.confirmationID)
    (h : m'.confirmations = m.confirmations.map f) (id : String) :
    m'.confirmation id = (m.confirmation id).map f := by
  rw [confirmation, h, List.find?_map]
  refine congrArg (Option.map f) (congrArg (fun p => m.confirmations.find? p) ?_)
  ext c
  simp [h_id]

end Manager

/-! ### One step -/

namespace Manager

variable {m m' : Manager κ} {now : Time} {k : Command} {id : String}

omit [DecidableEq κ] in
/-- All confirmations are changed by `f`, which keeps their ids. -/
theorem fate_map {f : Confirmation → Confirmation} {events : List Confirmation}
    (h_id : ∀ c, (f c).confirmationID = c.confirmationID)
    (h_map : m'.confirmations = m.confirmations.map f)
    (h_none : m.confirmation id = none → events = [])
    (h_some : ∀ c, m.confirmation id = some c → Fate m now k (some c) (some (f c)) events) :
    Fate m now k (m.confirmation id) (m'.confirmation id) events := by
  rw [confirmation_map h_id h_map id]
  cases h : m.confirmation id with
  | none =>
    rw [h_none h]
    exact .same none
  | some c => exact h_some c h

omit [DecidableEq κ] in
/-- A command that leaves the confirmations announces nothing. -/
theorem fate_same (h : m'.confirmations = m.confirmations) :
    Fate m now k (m.confirmation id) (m'.confirmation id) [] := by
  have h_same : m'.confirmation id = m.confirmation id :=
    congrArg (List.find? fun c : Confirmation => c.confirmationID = id) h
  rw [h_same]
  exact .same _

omit [DecidableEq κ] in
/-- The pending confirmations that `p` selects are given a status. -/
theorem fate_loop {p : Confirmation → Bool} {status : ConfirmationStatus}
    {f : Confirmation → Confirmation} (h_unique : m.UniqueIDs) (h_status : status ≠ .pending)
    (h_p : ∀ c, p c → c.status = .pending ∧ k.Ends m now c)
    (h_map : m'.confirmations = m.confirmations.map f)
    (h_id : ∀ c, (f c).confirmationID = c.confirmationID)
    (h_f : ∀ c ∈ m.confirmations, f c = if p c then c.resolve now status else c) :
    Fate m now k (m.confirmation id) (m'.confirmation id)
      (eventsFor id ((m.confirmations.filter p).map (·.resolve now status))) := by
  rw [h_unique.eventsFor_map]
  refine fate_map h_id h_map ?_ ?_
  · intro h_none
    rw [h_none]
    rfl
  · intro c h_c
    rw [h_c, h_f c (confirmation_eq_some h_c).1]
    -- a confirmation that the loop passes over stays, another is resolved with its event
    cases h_c : p c with
    | false =>
      simp only [Option.filter, h_c]
      exact .same _
    | true =>
      simp only [Option.filter, h_c]
      exact .resolved (h_p c h_c).1 h_status (.inr (h_p c h_c).2)

omit [DecidableEq κ] in
/-- Pending confirmations that a command ends are cancelled, and announced. -/
theorem fate_cancel (h_unique : m.UniqueIDs) (q : Confirmation → Bool)
    (h_q : ∀ c, c.status = .pending → q c → k.Ends m now c)
    (h : m'.confirmations = (m.cancelConfirmations now q).confirmations) :
    Fate m now k (m.confirmation id) (m'.confirmation id)
      (eventsFor id (m.cancelEvents now q)) := by
  refine fate_loop h_unique (by decide) ?_ h ?_ ?_
  · intro c h_p
    obtain ⟨h_pending, h_c⟩ := Bool.and_eq_true_iff.mp h_p
    have h_pending := of_decide_eq_true h_pending
    exact ⟨h_pending, h_q c h_pending h_c⟩
  · intro c
    split <;> rfl
  · intro c _
    simp only [Bool.and_eq_true, decide_eq_true_eq]
    rfl

omit [DecidableEq κ] in
/-- The confirmation with an id is given a status. -/
theorem fate_resolve {id₀ : String} {c : Confirmation} {status : ConfirmationStatus}
    (h_c : m.confirmation id₀ = some c)
    (h : m'.confirmations = (m.resolve now id₀ status).confirmations)
    (h_fate : Fate m now k (some c) (some (c.resolve now status)) [c.resolve now status]) :
    Fate m now k (m.confirmation id) (m'.confirmation id)
      (eventsFor id [c.resolve now status]) := by
  have h_id₀ : (c.resolve now status).confirmationID = id₀ := (confirmation_eq_some h_c).2
  -- one confirmation is resolved, and the others stay
  refine fate_map ?_ h ?_ ?_
  · intro d
    split <;> rfl
  -- there is none under this id, so it is not the one that is resolved
  · intro h_none
    have h_ne : id₀ ≠ id := by
      rintro rfl
      rw [h_none] at h_c
      contradiction
    simp [eventsFor, h_id₀, h_ne]
  · intro d h_d
    obtain ⟨-, h_id⟩ := confirmation_eq_some h_d
    by_cases h_same : id₀ = id
    · subst h_same
      rw [h_c, Option.some_inj] at h_d
      subst h_d
      have h_events : eventsFor id₀ [c.resolve now status] = [c.resolve now status] := by
        simp [eventsFor, h_id₀]
      rw [if_pos h_id, h_events]
      exact h_fate
    · have h_ne : d.confirmationID ≠ id₀ := fun h_eq => h_same (h_eq.symm.trans h_id)
      have h_events : eventsFor id [c.resolve now status] = [] := by
        simp [eventsFor, h_id₀, h_same]
      rw [if_neg h_ne, h_events]
      exact .same _

omit [DecidableEq κ] in
/-- The status of the confirmation with an id is set, and nothing is announced. -/
theorem fate_setStatus {id₀ : String} {c : Confirmation} {status : ConfirmationStatus}
    (h_c : m.confirmation id₀ = some c)
    (h : m'.confirmations = m.confirmations.map fun d =>
      if d.confirmationID = id₀ then { d with status } else d)
    (h_fate : Fate m now k (some c) (some { c with status }) []) :
    Fate m now k (m.confirmation id) (m'.confirmation id) [] := by
  refine fate_map ?_ h (fun _ => rfl) ?_
  · intro d
    split <;> rfl
  · intro d h_d
    obtain ⟨-, h_id⟩ := confirmation_eq_some h_d
    -- Only the confirmation named by the command gets the new status.
    by_cases h_same : d.confirmationID = id₀
    · rw [← h_id, h_same, h_c, Option.some_inj] at h_d
      subst h_d
      rw [if_pos h_same]
      exact h_fate
    · rw [if_neg h_same]
      exact .same _

/-- The check of a lease leaves the confirmations. -/
theorem confirmations_validLeaseLocked (m : Manager κ) (now : Time)
    (sessionID tabID leaseID : String) (requireOpenSession : Bool) :
    (m.validLeaseLocked now sessionID tabID leaseID requireOpenSession).manager.confirmations =
      m.confirmations := by
  have h_valid := m.validLease now sessionID tabID leaseID requireOpenSession
  generalize m.validLeaseLocked now sessionID tabID leaseID requireOpenSession = l at h_valid ⊢
  cases h_valid <;> rfl

/-- The janitor's walk over the confirmations. -/
theorem confirmations_expireConfirmations (m : Manager κ) (now : Time) :
    (m.expireConfirmations now).confirmations = m.confirmations.map fun c =>
      if c.confirmationID ∈ (m.confirmations.filter (·.overdue now)).map (·.confirmationID) then
        c.resolve now .expired
      else c := by
  unfold expireConfirmations
  -- The list of the overdue ones is fixed before the walk: the induction is on it.
  generalize m.confirmations.filter (·.overdue now) = cs
  induction cs generalizing m with
  | nil => simp
  | cons d ds ih =>
    rw [List.foldl_cons, ih, confirmations_finishAwaiting]
    refine List.map_map.trans (List.map_congr_left fun c _ => ?_)
    by_cases h_d : c.confirmationID = d.confirmationID
    · by_cases h_ds : c.confirmationID ∈ ds.map (·.confirmationID)
      all_goals simp [h_d, Confirmation.resolve]
    · simp [h_d]

omit [DecidableEq κ] in
/-- The walk meets a confirmation if it is overdue. -/
theorem UniqueIDs.overdue_iff (h : m.UniqueIDs) {c : Confirmation} (h_c : c ∈ m.confirmations) :
    c.confirmationID ∈ (m.confirmations.filter (·.overdue now)).map (·.confirmationID) ↔
      c.overdue now := by
  rw [List.mem_map]
  constructor
  · rintro ⟨d, h_d, h_id⟩
    have h_d := List.mem_filter.mp h_d
    rw [← List.inj_on_of_nodup_map h h_d.1 h_c h_id]
    exact h_d.2
  · intro h_overdue
    exact ⟨c, List.mem_filter.mpr ⟨h_c, h_overdue⟩, rfl⟩

/-- The janitor expires what has run out. -/
theorem fate_janitor (h_unique : m.UniqueIDs) :
    Fate m now .janitor (m.confirmation id) ((m.janitor now).manager.confirmation id)
      (eventsFor id (m.janitorEvents now)) := by
  refine fate_loop h_unique (by decide) ?_ (confirmations_expireConfirmations _ now) ?_ ?_
  · intro c h_overdue
    exact ⟨of_decide_eq_true (Bool.and_eq_true_iff.mp h_overdue).1, h_overdue⟩
  · intro c
    split <;> rfl
  · intro c h_c
    exact if_congr (h_unique.overdue_iff h_c) rfl rfl


/-- A session that is closed has its pending confirmations cancelled. -/
theorem fate_closeSession (h_unique : m.UniqueIDs) (sessionID reason : String) :
    Fate m now (.closeSession sessionID reason) (m.confirmation id)
      ((m.closeSession now sessionID reason).manager.confirmation id)
      (eventsFor id (m.closeSessionEvents now sessionID)) := by
  unfold closeSession closeSessionEvents
  cases h_session : m.sessions sessionID with
  | none => exact .same _
  | some session =>
    by_cases h_open : session.status ≠ .open
    · simp only [if_pos h_open]
      exact .same _
    · simp only [if_neg h_open]
      refine fate_cancel h_unique _ (fun c h_pending h_c => ?_) rfl
      exact ⟨⟨session, h_session, not_not.mp h_open⟩, h_pending, of_decide_eq_true h_c⟩

/-- The confirmation that a cancelled operation waits for is cancelled. -/
theorem fate_cancelOperation (h_unique : m.UniqueIDs) (sessionID operationID : String) :
    Fate m now (.cancelOperation sessionID operationID) (m.confirmation id)
      ((m.cancelOperation now sessionID operationID).manager.confirmation id)
      (eventsFor id (m.cancelOperationEvents now sessionID operationID)) := by
  unfold cancelOperation cancelOperationEvents
  cases h_op : m.sessionOperation sessionID operationID with
  | none => exact .same _
  | some r =>
    dsimp only
    cases h_status : (m.records r).status with
    -- Only an operation that waits has a confirmation to cancel.
    | awaitingConfirmation =>
      refine fate_cancel h_unique _ (fun c h_pending h_c => ?_) ?_
      · obtain ⟨h_id, h_session⟩ := Bool.and_eq_true_iff.mp h_c
        exact ⟨⟨r, h_op, h_status⟩, h_pending, of_decide_eq_true h_id, of_decide_eq_true h_session⟩
      · exact congrArg (List.map _) (confirmations_finishAwaiting ..)
    | running => exact fate_same rfl
    | completed => exact .same _
    | failed => exact .same _
    | cancelled => exact .same _

omit [DecidableEq κ] in
/-- A confirmation is asked for: a new one comes first, unless one for the same thing is there. -/
theorem fate_createConfirmationLocked {c : Confirmation} (h_pending : c.status = .pending)
    (h_new : ∀ d ∈ m.confirmations, d.confirmationID ≠ c.confirmationID) :
    Fate m now k (m.confirmation id) ((m.createConfirmationLocked c).manager.confirmation id)
      [] := by
  unfold createConfirmationLocked
  split
  · exact .same _
  · by_cases h_id : c.confirmationID = id
    -- The id is new, so nothing of this name is displaced.
    · have h_none : m.confirmation id = none := by
        refine List.find?_eq_none.mpr fun d h_d h_same => h_new d h_d ?_
        exact (of_decide_eq_true h_same).trans h_id.symm
      have h_some : (c :: m.confirmations).find? (·.confirmationID = id) = some c :=
        List.find?_cons_of_pos (decide_eq_true h_id)
      rw [h_none, confirmation, h_some]
      exact .made h_pending
    · have h_rest : (c :: m.confirmations).find? (·.confirmationID = id) = m.confirmation id :=
        List.find?_cons_of_neg (by simpa using h_id)
      rw [confirmation, confirmation, h_rest]
      exact .same _

/-- A pending confirmation gets the decision, or expires. -/
theorem fate_resolveConfirmation (id₀ decision : String) :
    Fate m now (.resolveConfirmation id₀ decision) (m.confirmation id)
      ((m.resolveConfirmation now id₀ decision).manager.confirmation id)
      (eventsFor id (m.resolveConfirmationEvents now id₀ decision)) := by
  unfold resolveConfirmation resolveConfirmationEvents
  cases h_c : m.confirmations.find? (·.confirmationID = id₀) with
  | none => exact .same _
  | some c =>
    dsimp only
    -- Only a pending confirmation is decided.
    by_cases h_pending : c.status = .pending
    · rw [if_neg (not_not_intro h_pending), if_neg (not_not_intro h_pending)]
      have h_id := (confirmation_eq_some h_c).2
      split
      -- its time has run out
      case isTrue h_late =>
        refine fate_resolve h_c (confirmations_finishAwaiting ..) ?_
        exact .resolved h_pending (by decide) (.inr ⟨h_id, h_pending, .inl h_late⟩)
      case isFalse =>
        split
        -- it is approved; a capability is then granted, if the session is open
        · cases c.kind with
          | action => exact fate_resolve h_c rfl (.resolved h_pending (by decide) (.inl rfl))
          | capability =>
            dsimp only
            cases m.openSessionLocked c.sessionID with
            | error rpcErr => exact fate_setStatus h_c rfl (.approved h_pending)
            | ok session =>
              exact fate_resolve h_c rfl (.resolved h_pending (by decide) (.inl rfl))
        · split
          -- it is denied
          case isTrue h_deny =>
            refine fate_resolve h_c (confirmations_finishAwaiting ..) ?_
            exact .resolved h_pending (by decide) (.inr ⟨h_id, h_pending, .inr h_deny⟩)
          case isFalse => exact .same _
    · rw [if_pos h_pending, if_pos h_pending]
      exact .same _

omit [DecidableEq κ] in
/-- A confirmation of an action is found under its id. -/
theorem actionConfirmation_eq_some {id₀ : String} {c : Confirmation}
    (h : m.actionConfirmation id₀ = some c) : m.confirmation id₀ = some c ∧ c.kind = .action :=
  (Option.filter_eq_some_iff.mp h).imp_right of_decide_eq_true

/-- A confirmation that is presented too late expires. -/
theorem fate_authorizeActionConfirmation (formatTime : Time → String)
    (id₀ sessionID tabID browserInstanceID requestHash : String) :
    Fate m now
      (.authorizeActionConfirmation id₀ sessionID tabID browserInstanceID requestHash)
      (m.confirmation id)
      ((m.authorizeActionConfirmation now formatTime id₀ sessionID tabID browserInstanceID
        requestHash).manager.confirmation id)
      (eventsFor id (m.authorizeActionConfirmationEvents now id₀ sessionID tabID
        browserInstanceID requestHash)) := by
  unfold authorizeActionConfirmation authorizeActionConfirmationEvents
  cases h_c : m.actionConfirmation id₀ with
  | none => exact .same _
  | some c =>
    dsimp only
    -- Only the exact action can use the confirmation.
    by_cases h_bound : c.isBound sessionID tabID browserInstanceID requestHash
    · have h_same : ¬ (c.sessionID ≠ sessionID ∨ c.tabID ≠ tabID ∨
          c.browserInstanceID ≠ browserInstanceID ∨ c.requestHash ≠ requestHash) := by
        simpa [Confirmation.isBound, and_assoc] using h_bound
      rw [if_neg h_same]
      by_cases h_expired : c.expiresAt ≤ now
      · rw [if_pos h_expired, if_pos ⟨h_bound, h_expired⟩]
        obtain ⟨h_found, h_kind⟩ := actionConfirmation_eq_some h_c
        have h_ends : (Command.authorizeActionConfirmation id₀ sessionID tabID browserInstanceID
            requestHash).Ends m now c :=
          ⟨(confirmation_eq_some h_found).2, h_kind, h_bound, h_expired⟩
        -- Its time has run out: it expires, also if it was decided before.
        refine fate_resolve h_found (confirmations_finishAwaiting ..) ?_
        by_cases h_pending : c.status = .pending
        · exact .resolved h_pending (by decide) (.inr h_ends)
        · exact .lapsed ⟨c, h_c, h_bound, h_expired, h_pending⟩ h_ends
      · rw [if_neg h_expired, if_neg fun h => h_expired h.2]
        cases c.status <;> exact .same _
    · have h_other : c.sessionID ≠ sessionID ∨ c.tabID ≠ tabID ∨
          c.browserInstanceID ≠ browserInstanceID ∨ c.requestHash ≠ requestHash := by
        by_contra h_same
        refine h_bound ?_
        simpa [Confirmation.isBound, and_assoc] using h_same
      rw [if_pos h_other, if_neg fun h => h_bound h.1]
      exact .same _

omit [DecidableEq κ] in
/-- An approved action is let through once. -/
theorem fate_consumeActionConfirmation (id₀ : String) :
    Fate m now (.consumeActionConfirmation id₀) (m.confirmation id)
      ((m.consumeActionConfirmation id₀).manager.confirmation id) [] := by
  unfold consumeActionConfirmation
  cases h_c : m.actionConfirmation id₀ with
  | none => exact .same _
  | some c =>
    dsimp only
    cases h_status : c.status with
    -- Consuming is the only move from `approved`.
    | approved =>
      obtain ⟨h_found, h_kind⟩ := actionConfirmation_eq_some h_c
      refine fate_setStatus h_found rfl (.consumed h_status ?_)
      exact ⟨(confirmation_eq_some h_found).2, h_kind, h_status⟩
    | pending => exact .same _
    | denied => exact .same _
    | expired => exact .same _
    | cancelled => exact .same _
    | consumed => exact .same _

end Manager

/-- **What a command does to a confirmation.** -/
theorem Command.fate {m : Manager κ} (h_unique : m.UniqueIDs) (now : Time) {k : Command}
    (h_new : k.NewID m) (id : String) :
    Fate m now k (m.confirmation id) ((k.run m now).manager.confirmation id)
      (eventsFor id (k.resolvedEvents m now)) := by
  -- Most commands leave the confirmations alone.
  cases k with
  | openSession => exact Manager.fate_same rfl
  | grantCapabilities sessionID requested =>
    refine Manager.fate_same ?_
    simp only [run, Locked.effects, Manager.grantCapabilities]
    split
    · rfl
    · split
      · rfl
      · split <;> rfl
  | markOwnedTab sessionID tabID =>
    refine Manager.fate_same ?_
    simp only [run, Locked.effects, Manager.markOwnedTab]
    split <;> rfl
  | validateLease => exact Manager.fate_same (Manager.confirmations_validLeaseLocked ..)
  | renewLease sessionID tabID leaseID ttl =>
    refine Manager.fate_same ?_
    simp only [run, Locked.effects, Manager.renewLease]
    split
    · exact Manager.confirmations_validLeaseLocked ..
    · rfl
  | bindLeaseBrowser sessionID tabID leaseID browserInstanceID =>
    refine Manager.fate_same ?_
    simp only [run, Locked.effects, Manager.bindLeaseBrowser]
    split
    · rfl
    · split
      · exact Manager.confirmations_validLeaseLocked ..
      · split <;> rfl
  | claimTab id sessionID tabID ttl force =>
    refine Manager.fate_same ?_
    simp only [run, Locked.effects, Manager.claimTabForce]
    split
    · rfl
    · split
      · rfl
      · split
        · rfl
        · split
          · split
            · rfl
            · split <;> rfl
          · rfl
  | releaseTab sessionID tabID leaseID reason =>
    refine Manager.fate_same ?_
    simp only [run, Locked.effects, Manager.releaseTab]
    split
    · exact Manager.confirmations_validLeaseLocked ..
    · rfl
  | revokeTab tabID reason =>
    refine Manager.fate_same ?_
    simp only [run, Locked.effects, Manager.revokeTab]
    split <;> rfl
  -- these cancel what is pending
  | revokeBrowser browserInstanceID reason =>
    refine Manager.fate_cancel h_unique _ (fun c h_pending h_c => ?_) rfl
    exact ⟨h_pending, of_decide_eq_true h_c⟩
  | closeSession sessionID reason =>
    exact Manager.fate_closeSession h_unique sessionID reason
  | stopAll reason => exact Manager.fate_cancel h_unique _ (fun c h_pending _ => h_pending) rfl
  | cancelOperation sessionID operationID =>
    exact Manager.fate_cancelOperation h_unique sessionID operationID
  -- these ask for a new one
  | createActionConfirmation id₀ sessionID tabID browserInstanceID operationID requestHash ttl =>
    simp only [run, Locked.effects, Manager.createActionConfirmation]
    split
    · exact .same _
    · exact Manager.fate_createConfirmationLocked rfl (h_new id₀ (Option.mem_toList.mpr rfl))
  | createCapabilityConfirmation id₀ sessionID browserInstanceID requestHash requested ttl =>
    simp only [run, Locked.effects, Manager.createCapabilityConfirmation]
    split
    · exact .same _
    · split
      · exact .same _
      · split
        · exact .same _
        · exact Manager.fate_createConfirmationLocked rfl (h_new id₀ (Option.mem_toList.mpr rfl))
  -- these decide, use or expire one
  | resolveConfirmation id₀ decision => exact Manager.fate_resolveConfirmation id₀ decision
  | authorizeActionConfirmation =>
    exact Manager.fate_authorizeActionConfirmation (fun _ => "") _ _ _ _ _
  | consumeActionConfirmation id₀ => exact Manager.fate_consumeActionConfirmation id₀
  | storeArtifact artifact =>
    refine Manager.fate_same ?_
    simp only [run, Locked.effects, Manager.storeArtifact]
    split
    · rfl
    · split <;> rfl
  | deleteArtifact id₀ =>
    refine Manager.fate_same ?_
    simp only [run, Locked.effects, Manager.deleteArtifact]
    split <;> rfl
  | janitor => exact Manager.fate_janitor h_unique

/-! ### Runs -/

/-- Ids stay unique. -/
theorem Command.uniqueIDs {m : Manager κ} (h_unique : m.UniqueIDs) (now : Time) {k : Command}
    (h_new : k.NewID m) : (k.run m now).manager.UniqueIDs := by
  unfold Manager.UniqueIDs
  obtain ⟨f, h_keeps, h_map⟩ | ⟨c, h_id, -, h_cons⟩ := k.confirmations m now
  · have h_ids : ((fun c : Confirmation => c.confirmationID) ∘ f) = (·.confirmationID) := by
      funext c
      exact h_keeps.confirmationID c
    rw [h_map, List.map_map, h_ids]
    exact h_unique
  · rw [h_cons, List.map_cons, List.nodup_cons]
    refine ⟨fun h_mem => ?_, h_unique⟩
    obtain ⟨d, h_d, h_same⟩ := List.mem_map.mp h_mem
    exact h_new c.confirmationID (Option.mem_toList.mpr h_id) d h_d h_same

namespace Outcomes

open Operations

/-- Confirmations get new ids. -/
def NewIDs (s : State κ) : Event κ → Prop
  | .command k _ => k.NewID s.manager
  | _ => True

instance (s : State κ) : ∀ e, Decidable (NewIDs s e)
  | .command k _ => inferInstanceAs (Decidable (k.NewID s.manager))
  | .execute .. => isTrue trivial
  | .ctxDone .. => isTrue trivial
  | .takeDone _ => isTrue trivial
  | .invoke _ => isTrue trivial
  | .finish .. => isTrue trivial
  | .record .. => isTrue trivial

/-- The methods of the manager and any number of `ExecuteOperation` calls. -/
def machine (hash : String → String) (leaseTTL : Duration) : Machine (State κ) (Event κ) :=
  (Operations.machine hash leaseTTL).restrict NewIDs

instance (hash : String → String) (leaseTTL : Duration) (s : State κ) (e : Event κ) :
    Decidable ((machine hash leaseTTL).enabled s e) :=
  inferInstanceAs (Decidable (Operations.enabled s e ∧ NewIDs s e))

/-- The `confirmation.resolved` events of a step. -/
def resolvedEvents (s : State κ) : Event κ → List Confirmation
  | .command k now => k.resolvedEvents s.manager now
  | _ => []

/-- Nobody presents a confirmation that has been decided once it has expired. -/
def Prompt (s : State κ) : Event κ → Prop
  | .command k now => ¬ k.Lapses s.manager now
  | _ => True

instance (s : State κ) : ∀ e, Decidable (Prompt s e)
  | .command k now => inferInstanceAs (Decidable (¬ k.Lapses s.manager now))
  | .execute .. => isTrue trivial
  | .ctxDone .. => isTrue trivial
  | .takeDone _ => isTrue trivial
  | .invoke _ => isTrue trivial
  | .finish .. => isTrue trivial
  | .record .. => isTrue trivial

/-- **Final outcomes.** What is denied, cancelled, expired or consumed at some point of a run has
its status and its time at the end of it, and no confirmation was announced twice. -/
structure OutcomesFinal (hash : String → String) (leaseTTL : Duration) (es : List (Event κ)) :
    Prop where
  final : ∀ es₁ es₂, es = es₁ ++ es₂ → ∀ id c,
    ((machine hash leaseTTL).exec (machine hash leaseTTL).init es₁).manager.confirmation id =
      some c → c.Final →
    ∃ c', ((machine hash leaseTTL).exec (machine hash leaseTTL).init es).manager.confirmation id =
      some c' ∧ c'.status = c.status ∧ c'.resolvedAt = c.resolvedAt
  once : ∀ id, (eventsFor id
    ((machine hash leaseTTL).log resolvedEvents (machine hash leaseTTL).init es)).length ≤ 1

variable {hash : String → String} {leaseTTL : Duration} {s : State κ} {e : Event κ}

/-- Only commands change confirmations. -/
theorem confirmations_next (h : ∀ k now, e ≠ .command k now) :
    (Operations.next hash s e).manager.confirmations = s.manager.confirmations := by
  obtain ⟨operations, records, h_manager⟩ := manager_next hash s h
  rw [h_manager]

variable (hash) in
/-- A step does to a confirmation what a command does to it, or nothing. -/
theorem fate_next (h_unique : s.manager.UniqueIDs) (h_new : NewIDs s e) (id : String) :
    (∃ k now, e = .command k now ∧
      Fate s.manager now k (s.manager.confirmation id)
        ((Operations.next hash s e).manager.confirmation id) (eventsFor id (resolvedEvents s e))) ∨
    (Operations.next hash s e).manager.confirmation id = s.manager.confirmation id ∧
      resolvedEvents s e = [] := by
  -- Steps that are no command leave the confirmations as they are.
  by_cases h : ∀ k now, e ≠ .command k now
  · refine .inr ⟨?_, ?_⟩
    · exact congrArg (List.find? fun c : Confirmation => c.confirmationID = id)
        (confirmations_next h)
    · cases e with
      | command k now => exact absurd rfl (h k now)
      | _ => rfl
  · push Not at h
    obtain ⟨k, now, rfl⟩ := h
    exact .inl ⟨k, now, rfl, Command.fate h_unique now h_new id⟩

/-- New ids keep the ids apart. -/
theorem uniqueIDs_next (h_unique : s.manager.UniqueIDs) (h_new : NewIDs s e) :
    (Operations.next hash s e).manager.UniqueIDs := by
  by_cases h : ∀ k now, e ≠ .command k now
  · rw [Manager.UniqueIDs, confirmations_next h]
    exact h_unique
  · push Not at h
    obtain ⟨k, now, rfl⟩ := h
    exact Command.uniqueIDs h_unique now h_new

/-- No two confirmations have one id, in every run. -/
theorem uniqueIDs (h : (machine hash leaseTTL).Reachable s) : s.manager.UniqueIDs := by
  refine h.induction (P := fun s => s.manager.UniqueIDs) List.nodup_nil ?_
  intro s e _ h_unique h_enabled
  exact uniqueIDs_next h_unique h_enabled.2

/-- A final outcome outlasts a prompt step. -/
theorem final_next (h_unique : s.manager.UniqueIDs) (h_new : NewIDs s e) (h_prompt : Prompt s e)
    {id : String} {c : Confirmation} (h_c : s.manager.confirmation id = some c)
    (h_final : c.Final) :
    (Operations.next hash s e).manager.confirmation id = some c := by
  obtain ⟨k, now, rfl, h_fate⟩ | ⟨h_same, -⟩ := fate_next hash h_unique h_new id
  · rw [h_c] at h_fate
    generalize (Operations.next hash s (.command k now)).manager.confirmation id = after,
      eventsFor id (resolvedEvents s (.command k now)) = events at h_fate ⊢
    cases h_fate with
    | same => rfl
    | resolved h_pending => simp [Confirmation.Final, h_pending] at h_final
    | approved h_pending => simp [Confirmation.Final, h_pending] at h_final
    | consumed h_approved => simp [Confirmation.Final, h_approved] at h_final
    | lapsed h_lapses => exact absurd h_lapses h_prompt
  · exact h_same.trans h_c

/-- A confirmation has been announced at most once, and not while it is pending. -/
def Announced (id : String) (events : List Confirmation) (found : Option Confirmation) : Prop :=
  (eventsFor id events).length ≤ 1 ∧
    ((∀ c ∈ found, c.status = .pending) → eventsFor id events = [])

/-- What is announced of a confirmation goes with its status. -/
theorem announced_next {id : String} {events : List Confirmation}
    (h_unique : s.manager.UniqueIDs) (h_new : NewIDs s e) (h_prompt : Prompt s e)
    (h : Announced id events (s.manager.confirmation id)) :
    Announced id (events ++ resolvedEvents s e)
      ((Operations.next hash s e).manager.confirmation id) := by
  unfold Announced
  rw [eventsFor_append]
  obtain ⟨k, now, rfl, h_fate⟩ | ⟨h_same, h_nil⟩ := fate_next hash h_unique h_new id
  · generalize s.manager.confirmation id = before,
      (Operations.next hash s (.command k now)).manager.confirmation id = after,
      eventsFor id (resolvedEvents s (.command k now)) = new at h h_fate ⊢
    cases h_fate with
    | same =>
      rw [List.append_nil]
      exact h
    | made =>
      -- Nothing had the id, so nothing was announced for it.
      have h_none : eventsFor id events = [] := h.2 (by simp)
      simp [h_none]
    | @resolved c status h_pending h_status =>
      have h_none : eventsFor id events = [] := h.2 (by simpa using h_pending)
      simp [h_none, Confirmation.resolve, h_status]
    | approved h_pending =>
      have h_none : eventsFor id events = [] := h.2 (by simpa using h_pending)
      simp [h_none]
    | consumed => simpa using h.1
    | lapsed h_lapses => exact absurd h_lapses h_prompt
  · rw [h_same, h_nil, eventsFor_nil, List.append_nil]
    exact h

/-- **Outcomes of confirmations.** In every run in which nobody presents a decided confirmation
after its expiry, outcomes are final. -/
theorem outcomesFinal_of_prompt {es : List (Event κ)}
    (h_runs : ((machine hash leaseTTL).restrict Prompt).Runs (machine hash leaseTTL).init es) :
    OutcomesFinal hash leaseTTL es := by
  constructor
  -- a final outcome stands from there on
  · rintro es₁ es₂ rfl id c h_c h_final
    have h_split := (Machine.runs_append _ _ _ _).mp h_runs
    have h_kept := Machine.Runs.stable (M := (machine hash leaseTTL).restrict Prompt)
      (P := fun s => s.manager.confirmation id = some c) (Q := fun _ => True) ?_
      (Machine.Runs.reachable h_split.1) h_c (fun _ _ => trivial) h_split.2
    · refine ⟨c, ?_, rfl, rfl⟩
      rw [Machine.exec_append]
      exact h_kept
    · intro s e h_s _ h_c h_enabled
      exact final_next (uniqueIDs h_s.of_restrict) h_enabled.1.2 h_enabled.2 h_c h_final
  · intro id
    -- the events of a confirmation, counted along the run
    have h_history := Machine.Runs.history (M := (machine hash leaseTTL).restrict Prompt)
      (P := fun es s => Announced id
        ((machine hash leaseTTL).log resolvedEvents (machine hash leaseTTL).init es)
        (s.manager.confirmation id)) ?_ ?_ h_runs
    · exact h_history.1
    · exact ⟨Nat.zero_le 1, fun _ => rfl⟩
    · rintro es s e h_es rfl h_announced h_enabled
      rw [Machine.log_append, Machine.log_cons, Machine.log_nil, List.append_nil]
      exact announced_next (uniqueIDs h_es.of_restrict.reachable) h_enabled.1.2 h_enabled.2
        h_announced

/-- An action is confirmed by the user, and the confirmation is consumed. -/
def confirmed : List (Event Unit) :=
  [.command (.openSession "ses_1" "" "") 0,
    .command (.createActionConfirmation "confirm_1" "ses_1" "tab_7" "browser_1" "op_1" "abc"
      minute) 0,
    .command (.resolveConfirmation "confirm_1" "approve") second,
    .command (.authorizeActionConfirmation "confirm_1" "ses_1" "tab_7" "browser_1" "abc")
      (2 * second),
    .command (.consumeActionConfirmation "confirm_1") (2 * second)]

/-- A confirmation that is approved and consumed in time. -/
theorem outcomesFinal_of_prompt_confirmed : OutcomesFinal id 0 confirmed := by
  have h_runs : ((machine id 0).restrict Prompt).Runs (machine id 0).init confirmed := by
    decide
  exact outcomesFinal_of_prompt h_runs

/-- A confirmation is denied. -/
def denied : List (Event Unit) :=
  [.command (.openSession "ses_1" "" "") 0,
    .command (.createActionConfirmation "confirm_1" "ses_1" "tab_7" "browser_1" "op_1" "abc"
      minute) 0,
    .command (.resolveConfirmation "confirm_1" "deny") second]

/-- The denied confirmation is presented after its time. -/
def late : List (Event Unit) :=
  [.command (.authorizeActionConfirmation "confirm_1" "ses_1" "tab_7" "browser_1" "abc")
    (2 * minute)]

/-- A denied confirmation that is presented after its time turns into an expired one. -/
theorem not_outcomesFinal_denied :
    ¬ ∀ es : List (Event Unit), (machine id 0).Runs (machine id 0).init es →
      OutcomesFinal id 0 es := by
  intro h
  have h_run : (machine (κ := Unit) id 0).Runs (machine id 0).init (denied ++ late) ∧
      (((machine id 0).exec (machine id 0).init denied).manager.confirmation "confirm_1").map
        (·.status) = some .denied ∧
      (((machine id 0).exec (machine id 0).init (denied ++ late)).manager.confirmation
        "confirm_1").map (·.status) = some .expired := by decide
  obtain ⟨h_runs, h_denied, h_expired⟩ := h_run
  obtain ⟨c, h_c, h_status⟩ := Option.map_eq_some_iff.mp h_denied
  obtain ⟨c', h_c', h_kept, -⟩ :=
    (h _ h_runs).final denied late rfl "confirm_1" c h_c (.inl h_status)
  rw [h_c', Option.map_some, h_kept, h_status] at h_expired
  contradiction

end Outcomes

end BrowserControl.Core
