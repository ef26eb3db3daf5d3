import BrowserControl.Core.Manager

/-!
# The methods of the manager as commands

`Command` lists the methods that change the state of the manager, but for
`ExecuteOperation`, and `Command.run` is what each of them leaves. The branches of the methods
leave the manager in few ways, which `Leaves` lists. Whoever proves something about all
commands has to look at these only (`Command.leaves`).
-/

namespace BrowserControl.Core

open Encoding Protocol

/-- A method of the manager. -/
inductive Command where
  | openSession (id name clientID : String)
  | grantCapabilities (sessionID : String) (requested : List String)
  | markOwnedTab (sessionID tabID : String)
  | validateLease (sessionID tabID leaseID : String)
  | renewLease (sessionID tabID leaseID : String) (ttl : Duration)
  | bindLeaseBrowser (sessionID tabID leaseID browserInstanceID : String)
  /-- `id` is the id of the lease, if there is a new one. -/
  | claimTab (id sessionID tabID : String) (ttl : Duration) (force : Bool)
  | releaseTab (sessionID tabID leaseID reason : String)
  | revokeTab (tabID reason : String)
  | revokeBrowser (browserInstanceID reason : String)
  | closeSession (sessionID reason : String)
  | stopAll (reason : String)
  | cancelOperation (sessionID operationID : String)
  | createActionConfirmation (id sessionID tabID browserInstanceID operationID requestHash : String)
      (ttl : Duration)
  | createCapabilityConfirmation (id sessionID browserInstanceID requestHash : String)
      (requested : List String) (ttl : Duration)
  | resolveConfirmation (id decision : String)
  | authorizeActionConfirmation (id sessionID tabID browserInstanceID requestHash : String)
  | consumeActionConfirmation (id : String)
  | storeArtifact (artifact : Artifact)
  | deleteArtifact (id : String)
  | janitor

variable {κ : Type*} [DecidableEq κ]

/-- The effects of a critical section, without its result. -/
def Locked.effects {α : Type*} (l : Locked κ α) : Locked κ Unit where
  manager := l.manager
  result := ()
  cancelledQueues := l.cancelledQueues
  expired := l.expired

/-- The effects of a command. How a time is printed shows only in results. -/
def Command.run (m : Manager κ) (now : Time) : Command → Locked κ Unit
  | .openSession id name clientID => (m.openSession now id name clientID).effects
  | .grantCapabilities sessionID requested => (m.grantCapabilities now sessionID requested).effects
  | .markOwnedTab sessionID tabID => (m.markOwnedTab now sessionID tabID).effects
  | .validateLease sessionID tabID leaseID => (m.validateLease now sessionID tabID leaseID).effects
  | .renewLease sessionID tabID leaseID ttl =>
    (m.renewLease now sessionID tabID leaseID ttl).effects
  | .bindLeaseBrowser sessionID tabID leaseID browserInstanceID =>
    (m.bindLeaseBrowser now sessionID tabID leaseID browserInstanceID).effects
  | .claimTab id sessionID tabID ttl force =>
    (m.claimTabForce now (fun _ => "") id sessionID tabID ttl force).effects
  | .releaseTab sessionID tabID leaseID reason =>
    (m.releaseTab now sessionID tabID leaseID reason).effects
  | .revokeTab tabID reason => (m.revokeTab now tabID reason).effects
  | .revokeBrowser browserInstanceID reason =>
    (m.revokeBrowser now browserInstanceID reason).effects
  | .closeSession sessionID reason => (m.closeSession now sessionID reason).effects
  | .stopAll reason => (m.stopAll now reason).effects
  | .cancelOperation sessionID operationID =>
    (m.cancelOperation now sessionID operationID).effects
  | .createActionConfirmation id sessionID tabID browserInstanceID operationID requestHash ttl =>
    (m.createActionConfirmation now id sessionID tabID browserInstanceID operationID requestHash
      ttl).effects
  | .createCapabilityConfirmation id sessionID browserInstanceID requestHash requested ttl =>
    (m.createCapabilityConfirmation now id sessionID browserInstanceID requestHash requested
      ttl).effects
  | .resolveConfirmation id decision => (m.resolveConfirmation now id decision).effects
  | .authorizeActionConfirmation id sessionID tabID browserInstanceID requestHash =>
    (m.authorizeActionConfirmation now (fun _ => "") id sessionID tabID browserInstanceID
      requestHash).effects
  | .consumeActionConfirmation id => (m.consumeActionConfirmation id).effects
  | .storeArtifact artifact => (m.storeArtifact artifact).effects
  | .deleteArtifact id => (m.deleteArtifact id).effects
  | .janitor => (m.janitor now).effects

/-- The ids a command makes up are new and not empty; sessions are never forgotten. -/
def Command.Fresh (m : Manager κ) : Command → Prop
  | .openSession id _ _ => id ≠ "" ∧ (m.sessions id).isNone
  | _ => True

instance (m : Manager κ) (c : Command) : Decidable (c.Fresh m) := by
  cases c <;> unfold Command.Fresh <;> infer_instance

omit [DecidableEq κ] in
@[simp] theorem Locked.effects_manager {α : Type*} (l : Locked κ α) :
    l.effects.manager = l.manager := rfl

/-- The id of the session a command opens. -/
def Command.sessionID : Command → Option String
  | .openSession id _ _ => some id
  | _ => none

/-- The id of the confirmation that a command may make. -/
def Command.confirmationID : Command → Option String
  | .createActionConfirmation id .. => some id
  | .createCapabilityConfirmation id .. => some id
  | _ => none

/-- The id of the confirmation that a command decides. -/
def Command.resolves : Command → Option String
  | .resolveConfirmation id _ => some id
  | _ => none

/-- The id of the lease that a command may make. -/
def Command.leaseID : Command → Option String
  | .claimTab id _ _ _ _ => some id
  | _ => none

omit [DecidableEq κ] in
/-- A new session has a new id. -/
theorem Command.Fresh.session {m : Manager κ} {k : Command} (h : k.Fresh m) {id : String}
    (h_id : k.sessionID = some id) : id ≠ "" ∧ m.sessions id = none := by
  cases k <;> simp [sessionID] at h_id
  rw [← h_id]
  exact ⟨h.1, Option.isNone_iff_eq_none.mp h.2⟩

/-! ### What a command leaves -/

/-- A lease that is renewed or bound to a Chrome instance; it is bound once. -/
structure Lease.Renews (l l' : Lease) : Prop where
  leaseID : l'.leaseID = l.leaseID
  sessionID : l'.sessionID = l.sessionID
  tabID : l'.tabID = l.tabID
  revoked : l'.revoked = l.revoked
  browser : l.browserInstanceID ≠ "" → l'.browserInstanceID = l.browserInstanceID

/-- A confirmation is not made pending, and stays with its session. -/
def Confirmation.Answers (f : Confirmation → Confirmation) : Prop :=
  ∀ c, (f c).sessionID = c.sessionID ∧ ((f c).status = .pending → f c = c)

/-- The confirmation has been decided, one way or the other. -/
def Confirmation.Decided (c : Confirmation) : Prop :=
  c.status = .approved ∨ c.status = .denied

/-- Confirmations keep what names them, and whose id is not that of `id` are not decided. -/
structure Confirmation.Keeps (id : Option String) (f : Confirmation → Confirmation) : Prop where
  confirmationID : ∀ c, (f c).confirmationID = c.confirmationID
  browserInstanceID : ∀ c, (f c).browserInstanceID = c.browserInstanceID
  decided : ∀ c, (f c).Decided → id ≠ some c.confirmationID → c.Decided

/-- **What a command leaves.** The manager `m` after a command at the time `now`, and the tab
queues that are cancelled. The branches of the methods that leave the manager in the same way
are one case. -/
inductive Leaves (m : Manager κ) (now : Time) (k : Command) :
    Manager κ → (String → Option String) → Prop where
  | unchanged : Leaves m now k m fun _ => none
  -- sessions
  | opened {id : String} {session : Session} (h_id : k.sessionID = some id)
      (h_open : session.status = .open) :
      Leaves m now k { m with sessions := Function.update m.sessions id (some session) }
        fun _ => none
  | updated {id : String} {session session' : Session}
      (h_session : m.openSessionLocked id = .ok session) (h_open : session'.status = .open) :
      Leaves m now k { m with sessions := Function.update m.sessions id (some session') }
        fun _ => none
  -- leases, and the queues that are cancelled with them
  | renewed {tabID : String} {l l' : Lease} (h_lease : m.leases tabID = some l)
      (h : l.Renews l') : Leaves m now k (m.setLease tabID l') fun _ => none
  | dropped {tabID : String} {l : Lease} (h_lease : m.leases tabID = some l) (reason : String) :
      Leaves m now k (m.dropLease now l tabID reason).manager
        (m.dropLease now l tabID reason).cancelledQueues
  | claimed {id sessionID tabID : String} {ttl : Duration} {force : Bool} {session : Session}
      (h_claim : k = .claimTab id sessionID tabID ttl force)
      (h_session : m.openSessionLocked sessionID = .ok session) (h_lease : m.leases tabID = none) :
      Leaves m now k (m.setLease tabID (m.newLease now id sessionID tabID ttl)) fun _ => none
  | replaced {id sessionID tabID : String} {ttl : Duration} {force : Bool} {session : Session}
      {l : Lease} (h_claim : k = .claimTab id sessionID tabID ttl force)
      (h_session : m.openSessionLocked sessionID = .ok session)
      (h_lease : m.leases tabID = some l) (reason : String) :
      Leaves m now k ((m.dropLease now l tabID reason).manager.setLease tabID
        (m.newLease now id sessionID tabID ttl)) (m.dropLease now l tabID reason).cancelledQueues
  | revoked (p : Lease → Bool) (q : Confirmation → Bool) (reason : String) :
      Leaves m now k
        (((m.cancelLeaseOperations now p reason).removeLeases p).cancelConfirmations now q)
        (m.queuesOf p reason)
  | closed {id : String} {session : Session} (h_session : m.sessions id = some session)
      (h_open : session.status = .open) (reason : String) :
      Leaves m now k
        ((({ m with sessions := Function.update m.sessions id (some (session.close now)) }
          |>.removeLeases fun l => l.sessionID = id).cancelOperationsLocked now id ""
          reason).cancelConfirmations now fun c => c.sessionID = id)
        (m.queuesOf (fun l => l.sessionID = id) reason)
  | stopped (reason : String) :
      Leaves m now k
        ((({ m with sessions := fun id => (m.sessions id).map (Session.close now) }
          |>.removeLeases fun _ => true).cancelConfirmations now
          fun _ => true).cancelOperationsLocked now "" "" reason)
        (m.queuesOf (fun _ => true) reason)
  -- operations and the confirmations they wait for
  | cancelledRun {id : String} {r : κ} (h_bound : m.operations id = some r)
      (h_running : (m.records r).status = .running) :
      Leaves m now k
        { m with records := Function.update m.records r { m.records r with cancelled := true } }
        fun _ => none
  | cancelledWait (id : String) (q : Confirmation → Bool) (rpcErr : RPCError) :
      Leaves m now k
        ((m.finishAwaitingOperationLocked now id .cancelled rpcErr).cancelConfirmations now q)
        fun _ => none
  | requested {c : Confirmation} {session : Session}
      (h_session : m.openSessionLocked c.sessionID = .ok session)
      (h_id : k.confirmationID = some c.confirmationID) (h_pending : c.status = .pending) :
      Leaves m now k { m with confirmations := c :: m.confirmations } fun _ => none
  | answered {f : Confirmation → Confirmation} (h : Confirmation.Answers f)
      (h_keeps : Confirmation.Keeps k.resolves f) :
      Leaves m now k { m with confirmations := m.confirmations.map f } fun _ => none
  | granted {id sessionID : String} {session : Session}
      (h_session : m.openSessionLocked sessionID = .ok session) (capabilities : List String)
      (h_resolves : k.resolves = some id) :
      Leaves m now k
        ((m.resolve now id .approved).addCapabilities now sessionID session capabilities)
        fun _ => none
  | failed (id operationID : String) {status : ConfirmationStatus} (h : status ≠ .pending)
      (rpcErr : RPCError) (h_resolves : status = .expired ∨ k.resolves = some id) :
      Leaves m now k
        ((m.resolve now id status).finishAwaitingOperationLocked now operationID .failed rpcErr)
        fun _ => none
  | stored {artifact : Artifact} (h : artifact.sessionID = "" ∨
      ∃ session, m.openSessionLocked artifact.sessionID = .ok session) :
      Leaves m now k
        { m with artifacts := Function.update m.artifacts artifact.artifactID (some artifact) }
        fun _ => none
  | deleted (id : String) :
      Leaves m now k { m with artifacts := Function.update m.artifacts id none } fun _ => none
  | swept : Leaves m now k (m.janitor now).manager (m.janitor now).cancelledQueues

namespace Manager

/-- What `validLeaseLocked` finds: the live lease of the holder, or an error. -/
inductive ValidLease (m : Manager κ) (now : Time) (sessionID tabID leaseID : String) :
    Locked κ (Except RPCError Lease) → Prop where
  | valid {l : Lease} (h : m.leases tabID = some l) (h_session : l.sessionID = sessionID)
      (h_lease : l.leaseID = leaseID) (h_live : now < l.expiresAt) (h_revoked : l.revoked = false) :
      ValidLease m now sessionID tabID leaseID { manager := m, result := .ok l }
  | invalid (rpcErr : RPCError) :
      ValidLease m now sessionID tabID leaseID { manager := m, result := .error rpcErr }
  | expired {l : Lease} (h : m.leases tabID = some l) (rpcErr : RPCError)
      (expired : String → Option Lease) :
      ValidLease m now sessionID tabID leaseID
        { manager := (m.dropLease now l tabID "lease expired").manager
          result := .error rpcErr
          cancelledQueues := (m.dropLease now l tabID "lease expired").cancelledQueues
          expired }

/-- The check of a lease says that it is held, or drops it because it has run out. -/
theorem validLease (m : Manager κ) (now : Time) (sessionID tabID leaseID : String)
    (requireOpenSession : Bool) : ValidLease m now sessionID tabID leaseID
      (m.validLeaseLocked now sessionID tabID leaseID requireOpenSession) := by
  -- the lease itself, after the session was looked at
  have h_held : ValidLease m now sessionID tabID leaseID
      (m.heldLease now sessionID tabID leaseID) := by
    unfold heldLease
    split
    · exact .invalid _
    case h_2 l h_lease =>
      split
      · exact .expired h_lease _ _
      case isFalse h_live =>
        split
        · exact .invalid _
        case isFalse h_revoked =>
          split
          · exact .invalid _
          case isFalse h_holder =>
            rw [not_or, not_not, not_not] at h_holder
            exact .valid h_lease h_holder.1 h_holder.2 (not_le.mp h_live)
              (Bool.not_eq_true _ ▸ h_revoked)
  unfold validLeaseLocked
  split
  · split
    · exact .invalid _
    · exact h_held
  · exact h_held

/-- The lease that `validLeaseLocked` returns is the live lease of the holder. -/
theorem ValidLease.of_ok {m : Manager κ} {now : Time} {sessionID tabID leaseID : String}
    {locked : Locked κ (Except RPCError Lease)} {l : Lease}
    (h : ValidLease m now sessionID tabID leaseID locked) (h_ok : locked.result = .ok l) :
    m.leases tabID = some l ∧ l.sessionID = sessionID ∧ l.leaseID = leaseID ∧
      now < l.expiresAt ∧ l.revoked = false := by
  cases h with
  | valid h_lease h_session h_id h_live h_revoked =>
    cases h_ok
    exact ⟨h_lease, h_session, h_id, h_live, h_revoked⟩
  | invalid => contradiction
  | expired => contradiction

/-- The check of a lease changes the manager at most by dropping the lease. -/
theorem ValidLease.leaves {m : Manager κ} {now : Time} {k : Command}
    {sessionID tabID leaseID : String} {locked : Locked κ (Except RPCError Lease)}
    (h : ValidLease m now sessionID tabID leaseID locked) :
    Leaves m now k locked.manager locked.cancelledQueues := by
  cases h with
  | valid => exact .unchanged
  | invalid => exact .unchanged
  | expired h_lease => exact .dropped h_lease _

omit [DecidableEq κ] in
/-- A session that is found open is there and open. -/
theorem openSessionLocked_open {m : Manager κ} {id : String} {session : Session}
    (h : m.openSessionLocked id = .ok session) :
    m.sessions id = some session ∧ session.status = .open := by
  unfold openSessionLocked at h
  split at h
  · contradiction
  case h_2 session' h_session =>
    split at h
    case isTrue h_open =>
      cases h
      exact ⟨h_session, h_open⟩
    · contradiction

/-- A confirmation is added for a session that is open. -/
theorem leaves_createConfirmationLocked {m : Manager κ} {now : Time} {k : Command}
    {c : Confirmation} {session : Session}
    (h : m.openSessionLocked c.sessionID = .ok session)
    (h_id : k.confirmationID = some c.confirmationID) (h_pending : c.status = .pending) :
    Leaves m now k (m.createConfirmationLocked c).manager
      (m.createConfirmationLocked c).cancelledQueues := by
  unfold createConfirmationLocked
  split
  · exact .unchanged
  · exact .requested h h_id h_pending

end Manager

/-- A confirmation with this id gets a status of an answer. -/
theorem Confirmation.answers_status (id : String) {status : ConfirmationStatus}
    (h : status ≠ .pending) (resolvedAt : Confirmation → Option Time) :
    Confirmation.Answers fun c =>
      if c.confirmationID = id then { c with status, resolvedAt := resolvedAt c } else c := by
  intro c
  dsimp only
  split
  · exact ⟨rfl, fun h_pending => absurd h_pending h⟩
  · exact ⟨rfl, fun _ => rfl⟩

/-- Only the confirmation that is named gets another status. -/
theorem Confirmation.keeps_status {id : String} {status : ConfirmationStatus}
    {k : Option String} (h : (status ≠ .approved ∧ status ≠ .denied) ∨ k = some id)
    (resolvedAt : Confirmation → Option Time) :
    Confirmation.Keeps k fun c =>
      if c.confirmationID = id then { c with status, resolvedAt := resolvedAt c } else c where
  confirmationID c := by split <;> rfl
  browserInstanceID c := by split <;> rfl
  decided c h_decided h_ne := by
    by_cases h_id : c.confirmationID = id
    · rw [if_pos h_id] at h_decided
      rcases h with ⟨h_approved, h_denied⟩ | h_k
      · exact (h_decided.elim h_approved h_denied).elim
      · exact absurd (h_id ▸ h_k) h_ne
    · rwa [if_neg h_id] at h_decided

/-! ### What each command leaves -/

namespace Command

variable (m : Manager κ) (now : Time)

/-- What it is for the effects of a command to be among those listed. -/
abbrev Listed (k : Command) : Prop :=
  Leaves m now k (k.run m now).manager (k.run m now).cancelledQueues

attribute [local simp] run

/-- `GrantCapabilities` -/
theorem leaves_grantCapabilities (sessionID : String) (requested : List String) :
    Listed m now (.grantCapabilities sessionID requested) := by
  simp only [Listed, run, Locked.effects, Manager.grantCapabilities]
  split
  · exact .unchanged
  case h_2 session h_session =>
    split
    · exact .unchanged
    · split
      · exact .unchanged
      · exact .updated h_session (Manager.openSessionLocked_open h_session).2

/-- `MarkOwnedTab` -/
theorem leaves_markOwnedTab (sessionID tabID : String) :
    Listed m now (.markOwnedTab sessionID tabID) := by
  simp only [Listed, run, Locked.effects, Manager.markOwnedTab]
  split
  · exact .unchanged
  case h_2 session h_session =>
    exact .updated h_session (Manager.openSessionLocked_open h_session).2

/-- A lease is renewed if it is valid, and dropped if it has run out. -/
theorem leaves_renewLease (sessionID tabID leaseID : String) (ttl : Duration) :
    Listed m now (.renewLease sessionID tabID leaseID ttl) := by
  have h_valid := m.validLease now sessionID tabID leaseID true
  simp only [Listed, run, Locked.effects, Manager.renewLease]
  split
  · exact h_valid.leaves
  case h_2 l h_ok =>
    exact .renewed (h_valid.of_ok h_ok).1 ⟨rfl, rfl, rfl, rfl, fun _ => rfl⟩

/-- `BindLeaseBrowser` -/
theorem leaves_bindLeaseBrowser (sessionID tabID leaseID browserInstanceID : String) :
    Listed m now (.bindLeaseBrowser sessionID tabID leaseID browserInstanceID) := by
  have h_valid := m.validLease now sessionID tabID leaseID true
  simp only [Listed, run, Locked.effects, Manager.bindLeaseBrowser]
  split
  · exact .unchanged
  · split
    · exact h_valid.leaves
    case h_2 l h_ok =>
      split
      · exact .unchanged
      case isFalse h_bound =>
        -- a lease that is bound already is bound to the same instance
        refine .renewed (h_valid.of_ok h_ok).1 ⟨rfl, rfl, rfl, rfl, fun h_ne => ?_⟩
        rw [not_and, not_not] at h_bound
        exact (h_bound h_ne).symm

/-- A tab without a lease gets one. A lease that is there is renewed for its own session, and
replaced if it is claimed by force or has run out. -/
theorem leaves_claimTab (id sessionID tabID : String) (ttl : Duration) (force : Bool) :
    Listed m now (.claimTab id sessionID tabID ttl force) := by
  simp only [Listed, run, Locked.effects, Manager.claimTabForce]
  split
  · exact .unchanged
  · split
    · exact .unchanged
    case h_2 session h_session =>
      split
      case h_1 h_none => exact .claimed rfl h_session h_none
      case h_2 l h_lease =>
        split
        · split
          · exact .renewed h_lease ⟨rfl, rfl, rfl, rfl, fun _ => rfl⟩
          · split
            · exact .unchanged
            · exact .replaced rfl h_session h_lease _
        · exact .replaced rfl h_session h_lease _

/-- `ReleaseTab` -/
theorem leaves_releaseTab (sessionID tabID leaseID reason : String) :
    Listed m now (.releaseTab sessionID tabID leaseID reason) := by
  have h_valid := m.validLease now sessionID tabID leaseID false
  simp only [Listed, run, Locked.effects, Manager.releaseTab]
  split
  · exact h_valid.leaves
  case h_2 l h_ok => exact .dropped (h_valid.of_ok h_ok).1 reason

/-- `RevokeTab` -/
theorem leaves_revokeTab (tabID reason : String) : Listed m now (.revokeTab tabID reason) := by
  simp only [Listed, run, Locked.effects, Manager.revokeTab]
  split
  · exact .unchanged
  case h_2 l h_lease => exact .dropped h_lease reason

/-- `CloseSession` -/
theorem leaves_closeSession (sessionID reason : String) :
    Listed m now (.closeSession sessionID reason) := by
  simp only [Listed, run, Locked.effects, Manager.closeSession]
  split
  · exact .unchanged
  case h_2 session h_session =>
    split
    · exact .unchanged
    case isFalse h_open => exact .closed h_session (not_not.mp h_open) reason

/-- An operation that waits for a confirmation is recorded, one that runs is only cancelled. -/
theorem leaves_cancelOperation (sessionID operationID : String) :
    Listed m now (.cancelOperation sessionID operationID) := by
  simp only [Listed, run, Locked.effects, Manager.cancelOperation]
  split
  · exact .unchanged
  case h_2 r h_op =>
    split
    · exact .cancelledWait operationID _ _
    case h_2 h_running =>
      exact .cancelledRun (Option.filter_eq_some_iff.mp h_op).1 h_running
    · exact .unchanged

/-- `CreateActionConfirmation` -/
theorem leaves_createActionConfirmation
    (id sessionID tabID browserInstanceID operationID requestHash : String) (ttl : Duration) :
    Listed m now (.createActionConfirmation id sessionID tabID browserInstanceID operationID
      requestHash ttl) := by
  simp only [Listed, run, Locked.effects, Manager.createActionConfirmation]
  split
  · exact .unchanged
  case h_2 session h_session => exact Manager.leaves_createConfirmationLocked h_session rfl rfl

/-- `CreateCapabilityConfirmation` -/
theorem leaves_createCapabilityConfirmation (id sessionID browserInstanceID requestHash : String)
    (requested : List String) (ttl : Duration) :
    Listed m now (.createCapabilityConfirmation id sessionID browserInstanceID requestHash
      requested ttl) := by
  simp only [Listed, run, Locked.effects, Manager.createCapabilityConfirmation]
  split
  · exact .unchanged
  case h_2 session h_session =>
    split
    · exact .unchanged
    · split
      · exact .unchanged
      · exact Manager.leaves_createConfirmationLocked h_session rfl rfl

/-- A decision is recorded while the confirmation waits for one, and grants what an approved
confirmation of capabilities asks for. -/
theorem leaves_resolveConfirmation (id decision : String) :
    Listed m now (.resolveConfirmation id decision) := by
  simp only [Listed, run, Locked.effects, Manager.resolveConfirmation]
  split
  · exact .unchanged
  · split
    · exact .unchanged
    · split
      -- it has run out
      · exact .failed id _ (by decide) _ (.inl rfl)
      · split
        · split
          · exact .answered (Confirmation.answers_status id (by decide) _)
              (Confirmation.keeps_status (.inr rfl) _)
          · split
            · exact .answered (Confirmation.answers_status id (by decide) _)
                (Confirmation.keeps_status (.inr rfl) _)
            case h_2 session h_session => exact .granted h_session _ rfl
        · split
          -- it is denied
          · exact .failed id _ (by decide) _ (.inr rfl)
          · exact .unchanged

/-- `AuthorizeActionConfirmation` -/
theorem leaves_authorizeActionConfirmation
    (id sessionID tabID browserInstanceID requestHash : String) :
    Listed m now (.authorizeActionConfirmation id sessionID tabID browserInstanceID
      requestHash) := by
  simp only [Listed, run, Locked.effects, Manager.authorizeActionConfirmation]
  split
  · exact .unchanged
  · split
    · exact .unchanged
    · split
      · exact .failed id _ (by decide) _ (.inl rfl)
      · split <;> exact .unchanged

/-- `ConsumeActionConfirmation` -/
theorem leaves_consumeActionConfirmation (id : String) :
    Listed m now (.consumeActionConfirmation id) := by
  simp only [Listed, run, Locked.effects, Manager.consumeActionConfirmation]
  split
  · exact .unchanged
  · split
    · exact .answered (Confirmation.answers_status id (by decide) _)
        (Confirmation.keeps_status (.inl (by decide)) _)
    · exact .unchanged
    · exact .unchanged

/-- `StoreArtifact` -/
theorem leaves_storeArtifact (artifact : Artifact) : Listed m now (.storeArtifact artifact) := by
  simp only [Listed, run, Locked.effects, Manager.storeArtifact]
  split
  case isTrue h_none => exact .stored (.inl h_none)
  · split
    · exact .unchanged
    case h_2 session h_session => exact .stored (.inr ⟨session, h_session⟩)

/-- `DeleteArtifact` -/
theorem leaves_deleteArtifact (id : String) : Listed m now (.deleteArtifact id) := by
  simp only [Listed, run, Locked.effects, Manager.deleteArtifact]
  split
  · exact .unchanged
  · exact .deleted id

end Command

/-- **The list is complete.** Whatever a command leaves, it leaves in one of the ways listed. -/
theorem Command.leaves (m : Manager κ) (now : Time) (k : Command) :
    Leaves m now k (k.run m now).manager (k.run m now).cancelledQueues := by
  cases k with
  -- sessions
  | openSession id name clientID => exact .opened rfl rfl
  | grantCapabilities sessionID requested => exact leaves_grantCapabilities ..
  | markOwnedTab sessionID tabID => exact leaves_markOwnedTab ..
  | closeSession sessionID reason => exact leaves_closeSession ..
  | stopAll reason => exact .stopped reason
  -- leases
  | validateLease sessionID tabID leaseID =>
    exact (m.validLease now sessionID tabID leaseID true).leaves
  | renewLease sessionID tabID leaseID ttl => exact leaves_renewLease ..
  | bindLeaseBrowser sessionID tabID leaseID browserInstanceID => exact leaves_bindLeaseBrowser ..
  | claimTab id sessionID tabID ttl force => exact leaves_claimTab ..
  | releaseTab sessionID tabID leaseID reason => exact leaves_releaseTab ..
  | revokeTab tabID reason => exact leaves_revokeTab ..
  | revokeBrowser browserInstanceID reason => exact .revoked _ _ reason
  -- operations and confirmations
  | cancelOperation sessionID operationID => exact leaves_cancelOperation ..
  | createActionConfirmation id sessionID tabID browserInstanceID operationID requestHash ttl =>
    exact leaves_createActionConfirmation ..
  | createCapabilityConfirmation id sessionID browserInstanceID requestHash requested ttl =>
    exact leaves_createCapabilityConfirmation ..
  | resolveConfirmation id decision => exact leaves_resolveConfirmation ..
  | authorizeActionConfirmation id sessionID tabID browserInstanceID requestHash =>
    exact leaves_authorizeActionConfirmation ..
  | consumeActionConfirmation id => exact leaves_consumeActionConfirmation ..
  -- artifacts
  | storeArtifact artifact => exact leaves_storeArtifact ..
  | deleteArtifact id => exact leaves_deleteArtifact ..
  | janitor => exact .swept

end BrowserControl.Core
