import BrowserControl.Protocol.Error
import Mathlib.Logic.Function.Basic

/-!
# The state of the daemon

`Manager` holds the sessions, leases, operations and confirmations of the daemon. Every
method takes the lock of the manager for its whole body, so each is one function here, from
the state it finds to what it leaves (`Locked`). Besides its result a method leaves what it
has done outside the maps: the tab queues it has cancelled while it held the lock, and the
leases it has handed to the expiry hook.

The order in which the code walks a map does not matter to any of the walks here, so the
maps are functions, and a walk changes all entries at once. Confirmations are also searched,
so they are a list.

A record of an operation is named by the `ExecuteOperation` call that registered it: the
code's pointer to it outlives its entry in the map, since a call may still wait on a record
that has been replaced or purged.

Times and durations are in nanoseconds. The clock is read once in a method, and `now` is what
it says.
-/

namespace BrowserControl.Core

open Encoding Protocol

/-- A moment, in nanoseconds. It may be before the epoch. -/
abbrev Time := ℤ

/-- `time.Duration`, in nanoseconds. -/
abbrev Duration := ℤ

/-- `time.Second` -/
def second : Duration := 1000000000

/-- `time.Minute` -/
def minute : Duration := 60 * second

/-- `time.Hour` -/
def hour : Duration := 60 * minute

/-! ### Records -/

/-- The status of a session. -/
inductive SessionStatus where
  | open
  | closed
  deriving DecidableEq

/-- A session, with the capabilities that it has been granted. -/
structure Session where
  sessionID : String
  name : String
  clientID : String
  capabilities : String → Bool
  createdAt : Time
  updatedAt : Time
  closedAt : Option Time
  status : SessionStatus
  ownedTabs : String → Bool

/-- The lease of a session on a tab. -/
structure Lease where
  leaseID : String
  sessionID : String
  tabID : String
  browserInstanceID : String
  createdAt : Time
  lastRenewed : Time
  expiresAt : Time
  revoked : Bool
  revokeReason : String
  deriving DecidableEq

/-- The status of an operation. -/
inductive OperationStatus where
  | running
  | awaitingConfirmation
  | completed
  | failed
  | cancelled
  deriving DecidableEq

/-- The record of an operation. `done` is the channel that is closed with it. -/
structure Operation where
  id : String
  sessionID : String
  tabID : String
  fingerprint : String
  status : OperationStatus
  result : Json := .null
  err : Option RPCError := none
  createdAt : Time
  completedAt : Time := 0
  /-- The channel `done` is closed. -/
  done : Bool := false
  /-- The context of the run was cancelled. -/
  cancelled : Bool := false

/-- What a confirmation is asked for. -/
inductive ConfirmationKind where
  | capability
  | action
  deriving DecidableEq

/-- The status of a confirmation. -/
inductive ConfirmationStatus where
  | pending
  | approved
  | denied
  | expired
  | cancelled
  /-- An approved action has been let through. -/
  | consumed
  deriving DecidableEq

/-- The status as it is written. -/
def ConfirmationStatus.text : ConfirmationStatus → String
  | .pending => "pending"
  | .approved => "approved"
  | .denied => "denied"
  | .expired => "expired"
  | .cancelled => "cancelled"
  | .consumed => "consumed"

/-- A confirmation that a user is asked for. -/
structure Confirmation where
  confirmationID : String
  operationID : String
  kind : ConfirmationKind
  sessionID : String
  tabID : String
  browserInstanceID : String
  requestHash : String
  capabilities : List String
  status : ConfirmationStatus
  createdAt : Time
  expiresAt : Time
  resolvedAt : Option Time

/-- The metadata of a file that the daemon keeps. -/
structure Artifact where
  artifactID : String
  sessionID : String
  tabID : String
  kind : String
  mimeType : String
  size : ℕ
  sha256 : String
  fileName : String
  uri : String
  createdAt : Time
  expiresAt : Time
  path : String

/-- An open session is closed. -/
def Session.close (now : Time) (session : Session) : Session :=
  if session.status = .open then
    { session with status := .closed, updatedAt := now, closedAt := some now }
  else session

/-- An operation that awaits a confirmation is over. -/
def Operation.finishAwaiting (op : Operation) (now : Time) (status : OperationStatus)
    (rpcErr : RPCError) : Operation :=
  if op.status = .awaitingConfirmation then
    { op with status, err := some rpcErr, completedAt := now }
  else op

/-- What the record says about the run. -/
def Operation.outcome (op : Operation) : Except RPCError Json :=
  match op.err with
  | some rpcErr => .error rpcErr
  | none => .ok op.result

/-- The confirmation is pending and has run out. -/
def Confirmation.overdue (c : Confirmation) (now : Time) : Bool :=
  c.status = .pending && c.expiresAt < now

/-- The state behind the lock. -/
structure Manager (κ : Type*) where
  sessions : String → Option Session
  leases : String → Option Lease
  /-- The record an operation id is bound to. -/
  operations : String → Option κ
  records : κ → Operation
  confirmations : List Confirmation
  leaseTTL : Duration
  artifacts : String → Option Artifact

/-- What a critical section leaves behind. -/
structure Locked (κ α : Type*) where
  manager : Manager κ
  result : α
  /-- The tab queues that were cancelled, and why. -/
  cancelledQueues : String → Option String := fun _ => none
  /-- The leases the expiry hook was started for. -/
  expired : String → Option Lease := fun _ => none

namespace Manager

variable {κ : Type*} [DecidableEq κ]

/-- A record that nobody has registered. -/
def unregistered : Operation where
  id := ""
  sessionID := ""
  tabID := ""
  fingerprint := ""
  status := .completed
  createdAt := 0

/-- `NewManager`. -/
def new (leaseTTL : Duration) : Manager κ where
  sessions _ := none
  leases _ := none
  operations _ := none
  records _ := unregistered
  confirmations := []
  leaseTTL := if leaseTTL ≤ 0 then 30 * second else leaseTTL
  artifacts _ := none

/-! ### Sessions -/

/-- The capabilities a session can hold; every session is opened with all of them. -/
def allCapabilities : List String :=
  ["history.read", "clipboard.read", "clipboard.write", "files.upload", "files.download",
    "secureInput", "artifact.localPath", "unsafe.evaluate", "unsafe.cdp"]

/-- Whether there is such a capability. -/
def knownCapability (value : String) : Bool := value ∈ allCapabilities

/-- The values in order, each once, and without empty ones. -/
def uniqueSorted (values : List String) : List String :=
  (values.filter (· ≠ "")).dedup.mergeSort

/-- The error for a session that is not there. -/
def sessionNotFound (id : String) : RPCError :=
  newError codeSessionNotFound "SESSION_NOT_FOUND" "session does not exist" false
    (.ofFields [("sessionId", .str id)])

/-- A new session is granted every capability. -/
def openSession (m : Manager κ) (now : Time) (id name clientID : String) : Locked κ Session :=
  let session : Session :=
    { sessionID := id
      name := name
      clientID := clientID
      -- All capabilities from the start, without an approval.
      capabilities := fun c => c ∈ allCapabilities
      createdAt := now
      updatedAt := now
      closedAt := none
      status := .open
      ownedTabs := fun _ => false }
  { manager := { m with sessions := Function.update m.sessions id (some session) }
    result := session }

/-- The session, whether it is open or closed. -/
def getSession (m : Manager κ) (id : String) : Except RPCError Session :=
  match m.sessions id with
  | none => .error (sessionNotFound id)
  | some session => .ok session

/-- The session, if it is open. -/
def openSessionLocked (m : Manager κ) (id : String) : Except RPCError Session :=
  match m.sessions id with
  | none => .error (sessionNotFound id)
  | some session =>
    if session.status = .open then .ok session
    else .error (newError codeSessionStopped "SESSION_CLOSED" "session is closed" false
      (.ofFields [("sessionId", .str id)]))

/-- Adds capabilities to a session. -/
def addCapabilities (m : Manager κ) (now : Time) (sessionID : String) (session : Session)
    (capabilities : List String) : Manager κ :=
  { m with
    sessions := Function.update m.sessions sessionID (some
      { session with
        capabilities := fun c => session.capabilities c || decide (c ∈ capabilities)
        updatedAt := now }) }

/-- Grants capabilities that there are to an open session. -/
def grantCapabilities (m : Manager κ) (now : Time) (sessionID : String)
    (requested : List String) : Locked κ (Except RPCError Session) :=
  match m.openSessionLocked sessionID with
  | .error rpcErr => { manager := m, result := .error rpcErr }
  | .ok session =>
    let requested := uniqueSorted requested
    if requested = [] then
      { manager := m
        result := .error (invalidParams "at least one capability is required" .empty) }
    else
      -- The first unknown name, in sorted order, is the one the error is about.
      match requested.find? fun c => !knownCapability c with
      | some capability =>
        { manager := m
          result := .error (newError codeCapabilityDenied "CAPABILITY_REQUIRED"
            "unknown capability cannot be granted" false
            (.ofFields [("capability", .str capability)])) }
      | none =>
        let m := m.addCapabilities now sessionID session requested
        { manager := m, result := m.getSession sessionID }

/-- A pending confirmation that asks for the capability. -/
def pendingCapability (m : Manager κ) (sessionID capability : String) : Option Confirmation :=
  m.confirmations.find? fun c =>
    c.sessionID = sessionID && c.kind = .capability && c.status = .pending &&
      capability ∈ c.capabilities

/-- The error of a capability that the session has not been granted, with a confirmation that waits
for it, if there is one. -/
def requireCapability (m : Manager κ) (sessionID capability : String) : Option RPCError :=
  match m.openSessionLocked sessionID with
  | .error rpcErr => some rpcErr
  | .ok session =>
    if session.capabilities capability then none
    else
      -- A request that waits for its approval already is told to wait.
      match m.pendingCapability sessionID capability with
      | some confirmation =>
        some (newError codeConfirmationNeeded "CONFIRMATION_REQUIRED"
          "capability is waiting for trusted UI approval" true
          (.ofFields [("sessionId", .str sessionID), ("capability", .str capability),
            ("confirmationId", .str confirmation.confirmationID)]))
      | none =>
        some (newError codeCapabilityDenied "CAPABILITY_REQUIRED"
          "session lacks required capability" false
          (.ofFields [("sessionId", .str sessionID), ("capability", .str capability)]))

/-- The tab belongs to the session. -/
def markOwnedTab (m : Manager κ) (now : Time) (sessionID tabID : String) :
    Locked κ (Option RPCError) :=
  match m.openSessionLocked sessionID with
  | .error rpcErr => { manager := m, result := some rpcErr }
  | .ok session =>
    { manager :=
        { m with
          sessions := Function.update m.sessions sessionID (some
            { session with
              ownedTabs := Function.update session.ownedTabs tabID true
              updatedAt := now }) }
      result := none }

/-! ### Operation records -/

/-- The record is the one its id is bound to. -/
def Registered (m : Manager κ) (r : κ) : Prop := m.operations (m.records r).id = some r

instance (m : Manager κ) (r : κ) : Decidable (m.Registered r) :=
  inferInstanceAs (Decidable (_ = _))

/-- An operation that awaits a confirmation gets its outcome. -/
def finishAwaitingOperationLocked (m : Manager κ) (now : Time) (operationID : String)
    (status : OperationStatus) (rpcErr : RPCError) : Manager κ :=
  match m.operations operationID with
  | none => m
  | some r =>
    { m with
      records := Function.update m.records r ((m.records r).finishAwaiting now status rpcErr) }

/-- Cancels an operation: the context of a run, or the wait for a confirmation. -/
def cancelRecord (now : Time) (reason : String) (op : Operation) : Operation :=
  if op.status = .running then { op with cancelled := true }
  else op.finishAwaiting now .cancelled
    (newError codeCancelled "CANCELLED" reason false (.ofFields [("operationId", .str op.id)]))

/-- Cancels the operations of a session and a tab, where the empty text stands for all. -/
def cancelOperationsLocked (m : Manager κ) (now : Time) (sessionID tabID reason : String) :
    Manager κ :=
  { m with
    records := fun r =>
      let op := m.records r
      if m.Registered r ∧ (sessionID = "" ∨ op.sessionID = sessionID) ∧
          (tabID = "" ∨ op.tabID = tabID) then
        cancelRecord now reason op
      else op }

/-- Cancels the pending confirmations that `p` selects. -/
def cancelConfirmations (m : Manager κ) (now : Time) (p : Confirmation → Bool) : Manager κ :=
  { m with
    confirmations := m.confirmations.map fun c =>
      if c.status = .pending ∧ p c then
        { c with status := .cancelled, resolvedAt := some now }
      else c }

/-! ### Leases -/

/-- How long a lease lives: at least a second, and at most as long as leases do. -/
def effectiveTTL (m : Manager κ) (ttl : Duration) : Duration :=
  if ttl ≤ 0 then m.leaseTTL
  else if ttl < second then second
  else if m.leaseTTL < ttl then m.leaseTTL
  else ttl

/-- Takes a lease from the table, cancels the operations of its session on the tab, and
cancels the queue of the tab. -/
def dropLease (m : Manager κ) (now : Time) (l : Lease) (tabID reason : String) :
    Locked κ Unit :=
  { manager :=
      { m with leases := Function.update m.leases tabID none }.cancelOperationsLocked now
        l.sessionID tabID reason
    result := ()
    cancelledQueues := Function.update (fun _ => none) tabID (some reason) }

/-- An error about a lease. -/
def leaseError (code : ℤ) (name message : String) (retryable : Bool)
    (sessionID tabID leaseID : String) : RPCError :=
  newError code name message retryable
    (.ofFields [("sessionId", .str sessionID), ("tabId", .str tabID),
      ("leaseId", .str leaseID)])

/-- The error for a tab without a lease. -/
def leaseRequired (sessionID tabID : String) : RPCError :=
  newError codeLeaseRequired "LEASE_REQUIRED" "tab is not claimed" true
    (.ofFields [("sessionId", .str sessionID), ("tabId", .str tabID)])

/-- The lease of a tab for its holder; a lease that has expired is dropped on the way. -/
def heldLease (m : Manager κ) (now : Time) (sessionID tabID leaseID : String) :
    Locked κ (Except RPCError Lease) :=
  match m.leases tabID with
  | none => { manager := m, result := .error (leaseRequired sessionID tabID) }
  | some l =>
    -- An expired lease is dropped on the way, whoever asks.
    if l.expiresAt ≤ now then
      let dropped := m.dropLease now l tabID "lease expired"
      { manager := dropped.manager
        result := .error (leaseError codeLeaseExpired "LEASE_EXPIRED" "tab lease expired" true
          sessionID tabID leaseID)
        cancelledQueues := dropped.cancelledQueues
        expired := Function.update (fun _ => none) tabID (some l) }
    else if l.revoked then
      { manager := m
        result := .error (newError codeLeaseExpired "LEASE_REVOKED" "tab lease was revoked" false
          (.ofFields [("sessionId", .str sessionID), ("tabId", .str tabID),
            ("leaseId", .str leaseID), ("reason", .str l.revokeReason)])) }
    else if l.sessionID ≠ sessionID ∨ l.leaseID ≠ leaseID then
      { manager := m
        result := .error (leaseError codeLeaseConflict "LEASE_CONFLICT"
          "lease does not belong to this session" false sessionID tabID leaseID) }
    else { manager := m, result := .ok l }

/-- The lease, if it is held by the session and, where this is asked for, the session is open. -/
def validLeaseLocked (m : Manager κ) (now : Time) (sessionID tabID leaseID : String)
    (requireOpenSession : Bool) : Locked κ (Except RPCError Lease) :=
  if requireOpenSession then
    match m.openSessionLocked sessionID with
    | .error rpcErr => { manager := m, result := .error rpcErr }
    | .ok _ => m.heldLease now sessionID tabID leaseID
  else m.heldLease now sessionID tabID leaseID

/-- Replaces the lease of a tab. -/
def setLease (m : Manager κ) (tabID : String) (l : Lease) : Manager κ :=
  { m with leases := Function.update m.leases tabID (some l) }

/-- The check without the lease. -/
def validateLease (m : Manager κ) (now : Time) (sessionID tabID leaseID : String) :
    Locked κ (Option RPCError) :=
  let valid := m.validLeaseLocked now sessionID tabID leaseID true
  { valid with
    result := match valid.result with
      | .error rpcErr => some rpcErr
      | .ok _ => none }

/-- A valid lease is prolonged from now on. -/
def renewLease (m : Manager κ) (now : Time) (sessionID tabID leaseID : String)
    (ttl : Duration) : Locked κ (Except RPCError Lease) :=
  let valid := m.validLeaseLocked now sessionID tabID leaseID true
  match valid.result with
  | .error _ => valid
  | .ok l =>
    let l := { l with lastRenewed := now, expiresAt := now + m.effectiveTTL ttl }
    { manager := m.setLease tabID l, result := .ok l }

/-- A lease is bound to one instance, for good. -/
def bindLeaseBrowser (m : Manager κ) (now : Time)
    (sessionID tabID leaseID browserInstanceID : String) : Locked κ (Except RPCError Lease) :=
  if browserInstanceID = "" then
    { manager := m, result := .error (invalidParams "browserInstanceId is required" .empty) }
  else
    let valid := m.validLeaseLocked now sessionID tabID leaseID true
    match valid.result with
    | .error _ => valid
    | .ok l =>
      -- The first binding stays.
      if l.browserInstanceID ≠ "" ∧ l.browserInstanceID ≠ browserInstanceID then
        { manager := m
          result := .error (newError codeLeaseConflict "LEASE_CONFLICT"
            "lease belongs to a different Chrome instance" false
            (.ofFields [("tabId", .str tabID)])) }
      else
        let l := { l with browserInstanceID := browserInstanceID }
        { manager := m.setLease tabID l, result := .ok l }

/-- The session gives up its lease. It need not be open for that. -/
def releaseTab (m : Manager κ) (now : Time) (sessionID tabID leaseID reason : String) :
    Locked κ (Except RPCError Lease) :=
  let valid := m.validLeaseLocked now sessionID tabID leaseID false
  match valid.result with
  | .error _ => valid
  | .ok l =>
    let dropped := m.dropLease now l tabID reason
    { manager := dropped.manager, result := .ok l, cancelledQueues := dropped.cancelledQueues }

/-- A new lease; `id` is its id. -/
def newLease (m : Manager κ) (now : Time) (id sessionID tabID : String) (ttl : Duration) :
    Lease where
  leaseID := id
  sessionID := sessionID
  tabID := tabID
  browserInstanceID := ""
  createdAt := now
  lastRenewed := now
  expiresAt := now + m.effectiveTTL ttl
  revoked := false
  revokeReason := ""

/-- Claims a tab. With `force` the tab is taken over from another session's live lease, for
which the expiry hook is not started; `formatTime` prints a time in an error. -/
def claimTabForce (m : Manager κ) (now : Time) (formatTime : Time → String)
    (id sessionID tabID : String) (ttl : Duration) (force : Bool) :
    Locked κ (Except RPCError Lease) :=
  if tabID = "" then
    { manager := m, result := .error (invalidParams "tabId is required" .empty) }
  else
    match m.openSessionLocked sessionID with
    | .error rpcErr => { manager := m, result := .error rpcErr }
    | .ok _ =>
      let l := m.newLease now id sessionID tabID ttl
      match m.leases tabID with
      | none => { manager := m.setLease tabID l, result := .ok l }
      | some current =>
        if now < current.expiresAt ∧ ¬ current.revoked then
          -- A session that claims its own tab again only renews the lease.
          if current.sessionID = sessionID then
            let current :=
              { current with lastRenewed := now, expiresAt := now + m.effectiveTTL ttl }
            { manager := m.setLease tabID current, result := .ok current }
          else if ¬ force then
            { manager := m
              result := .error (newError codeLeaseConflict "LEASE_CONFLICT"
                "tab is claimed by another session" true
                (.ofFields [("tabId", .str tabID),
                  ("expiresAt", .str (formatTime current.expiresAt)),
                  ("force", .str "retry tab.claim with force:true to take over")])) }
          else
            -- A takeover drops the other session's lease with its queue and operations.
            let dropped := m.dropLease now current tabID "lease taken over"
            { manager := dropped.manager.setLease tabID l
              result := .ok l
              cancelledQueues := dropped.cancelledQueues }
        else
          let dropped := m.dropLease now current tabID "expired lease replaced"
          { manager := dropped.manager.setLease tabID l
            result := .ok l
            cancelledQueues := dropped.cancelledQueues
            expired := Function.update (fun _ => none) tabID (some current) }

/-- The leases that `p` selects. -/
def selectLeases (m : Manager κ) (p : Lease → Bool) (tabID : String) : Option Lease :=
  (m.leases tabID).filter p

/-- Takes the selected leases from the table and cancels the queues of their tabs. -/
def removeLeases (m : Manager κ) (p : Lease → Bool) : Manager κ :=
  { m with leases := fun tabID => (m.leases tabID).filter fun l => !p l }

/-- Cancels the operations of the selected leases, each for its session and tab. -/
def cancelLeaseOperations (m : Manager κ) (now : Time) (p : Lease → Bool) (reason : String) :
    Manager κ :=
  { m with
    records := fun r =>
      let op := m.records r
      match m.selectLeases p op.tabID with
      | some l =>
        if m.Registered r ∧ op.sessionID = l.sessionID then cancelRecord now reason op else op
      | none => op }

/-- The queues of the tabs of the selected leases are cancelled. -/
def queuesOf (m : Manager κ) (p : Lease → Bool) (reason : String) (tabID : String) :
    Option String :=
  (m.selectLeases p tabID).map fun _ => reason

/-- The lease as it is handed out when it has been taken away. -/
def revoke (reason : String) (l : Lease) : Lease :=
  { l with revoked := true, revokeReason := reason }

/-- Takes the lease on a tab away from whoever has it. -/
def revokeTab (m : Manager κ) (now : Time) (tabID reason : String) :
    Locked κ (Except RPCError Lease) :=
  match m.leases tabID with
  | none =>
    { manager := m
      result := .error (newError codeLeaseRequired "LEASE_REQUIRED" "tab is not claimed" true
        (.ofFields [("tabId", .str tabID)])) }
  | some l =>
    let dropped := m.dropLease now l tabID reason
    { manager := dropped.manager
      result := .ok (revoke reason l)
      cancelledQueues := dropped.cancelledQueues }

/-- Revokes the leases of a Chrome instance. -/
def revokeBrowser (m : Manager κ) (now : Time) (browserInstanceID reason : String) :
    Locked κ (String → Option Lease) :=
  let p := fun l : Lease => l.browserInstanceID = browserInstanceID
  { manager := ((m.cancelLeaseOperations now p reason).removeLeases p).cancelConfirmations now
      fun c => c.browserInstanceID = browserInstanceID
    result := fun tabID => (m.selectLeases p tabID).map (revoke reason)
    cancelledQueues := m.queuesOf p reason }

/-- Closes a session: its leases are removed, its confirmations and operations cancelled. -/
def closeSession (m : Manager κ) (now : Time) (sessionID reason : String) :
    Locked κ (Except RPCError (String → Option Lease)) :=
  match m.sessions sessionID with
  | none => { manager := m, result := .error (sessionNotFound sessionID) }
  | some session =>
    if session.status ≠ .open then { manager := m, result := .ok fun _ => none }
    else
      let p := fun l : Lease => l.sessionID = sessionID
      let closed :=
        { m with
          sessions := Function.update m.sessions sessionID (some (session.close now)) }
      -- The operations of the leased tabs are among those of the session.
      { manager := ((closed.removeLeases p).cancelOperationsLocked now sessionID ""
          reason).cancelConfirmations now fun c => c.sessionID = sessionID
        result := .ok fun tabID => (m.selectLeases p tabID).map (revoke reason)
        cancelledQueues := m.queuesOf p reason }

/-- The emergency stop: every session is closed, every lease is revoked and every operation
is cancelled. Of the queues, those of leased tabs are. -/
def stopAll (m : Manager κ) (now : Time) (reason : String) : Locked κ (String → Option Lease) :=
  let closed :=
    { m with
      sessions := fun id => (m.sessions id).map (Session.close now) }
  { manager := ((closed.removeLeases fun _ => true).cancelConfirmations now
      fun _ => true).cancelOperationsLocked now "" "" reason
    result := fun tabID => (m.leases tabID).map (revoke reason)
    cancelledQueues := m.queuesOf (fun _ => true) reason }

/-! ### Operations and confirmations -/

/-- The error for an operation that is not there, or is another session's. -/
def operationMissing (operationID : String) : RPCError :=
  newError codeInvalidState "INVALID_REQUEST" "operation does not exist" false
    (.ofFields [("operationId", .str operationID)])

/-- The record of an operation of the session. -/
def sessionOperation (m : Manager κ) (sessionID operationID : String) : Option κ :=
  (m.operations operationID).filter fun r => (m.records r).sessionID = sessionID

/-- The record of an operation of the session. -/
def getOperation (m : Manager κ) (sessionID operationID : String) :
    Except RPCError Operation :=
  match m.sessionOperation sessionID operationID with
  | none => .error (operationMissing operationID)
  | some r => .ok (m.records r)

/-- `CancelOperation`. The cancel function of a run is called after the lock is dropped; it
only cancels the context of the run, which is what happens here. -/
def cancelOperation (m : Manager κ) (now : Time) (sessionID operationID : String) :
    Locked κ (Except RPCError Operation) :=
  match m.sessionOperation sessionID operationID with
  | none => { manager := m, result := .error (operationMissing operationID) }
  | some r =>
    match (m.records r).status with
    -- An operation that waits ends here; one that runs is only marked.
    | .awaitingConfirmation =>
      let m := (m.finishAwaitingOperationLocked now operationID .cancelled
        (newError codeCancelled "CANCELLED" "operation cancelled while awaiting confirmation" false
          (.ofFields [("operationId", .str operationID)]))).cancelConfirmations now
          fun c => c.operationID = operationID && c.sessionID = sessionID
      { manager := m, result := .ok (m.records r) }
    | .running =>
      let m := { m with
        records := Function.update m.records r { m.records r with cancelled := true } }
      { manager := m, result := m.getOperation sessionID operationID }
    | _ => { manager := m, result := .ok (m.records r) }

/-- The time a confirmation is given. -/
def confirmationTTL (ttl : Duration) : Duration :=
  if ttl ≤ 0 ∨ 10 * minute < ttl then 2 * minute else ttl

/-- A pending confirmation that asks for the same thing. -/
def sameRequest (c d : Confirmation) : Bool :=
  c.status = .pending && c.kind = d.kind && c.sessionID = d.sessionID && c.tabID = d.tabID &&
    c.browserInstanceID = d.browserInstanceID && c.operationID = d.operationID &&
    c.requestHash = d.requestHash

/-- Adds a pending confirmation unless one for the same thing is there. -/
def createConfirmationLocked (m : Manager κ) (c : Confirmation) :
    Locked κ (Except RPCError Confirmation) :=
  match m.confirmations.find? fun existing => sameRequest existing c with
  | some existing => { manager := m, result := .ok existing }
  | none => { manager := { m with confirmations := c :: m.confirmations }, result := .ok c }

/-- `CreateActionConfirmation`; `id` is a new id and `requestHash` the hash the confirmation
is bound to. -/
def createActionConfirmation (m : Manager κ) (now : Time)
    (id sessionID tabID browserInstanceID operationID requestHash : String) (ttl : Duration) :
    Locked κ (Except RPCError Confirmation) :=
  match m.openSessionLocked sessionID with
  | .error rpcErr => { manager := m, result := .error rpcErr }
  -- The same request that is still pending keeps its confirmation.
  | .ok _ =>
    m.createConfirmationLocked
      { confirmationID := id
        operationID := operationID
        kind := .action
        sessionID := sessionID
        tabID := tabID
        browserInstanceID := browserInstanceID
        requestHash := requestHash
        capabilities := []
        status := .pending
        createdAt := now
        expiresAt := now + confirmationTTL ttl
        resolvedAt := none }

/-- `CreateCapabilityConfirmation`; `requestHash` is the hash of what is asked for. -/
def createCapabilityConfirmation (m : Manager κ) (now : Time)
    (id sessionID browserInstanceID requestHash : String) (requested : List String)
    (ttl : Duration) : Locked κ (Except RPCError Confirmation) :=
  match m.openSessionLocked sessionID with
  | .error rpcErr => { manager := m, result := .error rpcErr }
  | .ok _ =>
    -- The capabilities are asked for once each, in sorted order.
    let requested := uniqueSorted requested
    if requested = [] then
      { manager := m
        result := .error (invalidParams "at least one capability is required" .empty) }
    else
      match requested.find? fun c => !knownCapability c with
      | some capability =>
        { manager := m
          result := .error (newError codeCapabilityDenied "CAPABILITY_REQUIRED"
            "unknown capability cannot be granted" false
            (.ofFields [("capability", .str capability)])) }
      | none =>
        m.createConfirmationLocked
          { confirmationID := id
            operationID := ""
            kind := .capability
            sessionID := sessionID
            tabID := ""
            browserInstanceID := browserInstanceID
            requestHash := requestHash
            capabilities := requested
            status := .pending
            createdAt := now
            expiresAt := now + confirmationTTL ttl
            resolvedAt := none }

/-- Gives a confirmation another status. -/
def resolve (m : Manager κ) (now : Time) (id : String) (status : ConfirmationStatus) :
    Manager κ :=
  { m with
    confirmations := m.confirmations.map fun c =>
      if c.confirmationID = id then { c with status, resolvedAt := some now } else c }

/-- An error about a confirmation. -/
def confirmationError (name message : String) (c : Confirmation) : RPCError :=
  newError codeConfirmationNeeded name message false
    (.ofFields [("confirmationId", .str c.confirmationID), ("operationId", .str c.operationID)])

/-- `ResolveConfirmation`: the trusted decision on a confirmation. -/
def resolveConfirmation (m : Manager κ) (now : Time) (id decision : String) :
    Locked κ (Except RPCError Confirmation) :=
  match m.confirmations.find? (·.confirmationID = id) with
  | none =>
    { manager := m
      result := .error (newError codeInvalidState "INVALID_REQUEST" "confirmation does not exist"
        false (.ofFields [("confirmationId", .str id)])) }
  | some c =>
    if c.status ≠ .pending then { manager := m, result := .ok c }
    else if c.expiresAt < now then
      { manager := (m.resolve now id .expired).finishAwaitingOperationLocked now c.operationID
          .failed (confirmationError "CONFIRMATION_EXPIRED" "confirmation expired" c)
        result := .error (newError codeConfirmationNeeded "CONFIRMATION_REQUIRED"
          "confirmation expired" false (.ofFields [("confirmationId", .str id)])) }
    else if decision = "approve" ∨ decision = "approved" then
      match c.kind with
      | .action =>
        { manager := m.resolve now id .approved
          result := .ok { c with status := .approved, resolvedAt := some now } }
      | .capability =>
        match m.openSessionLocked c.sessionID with
        | .error rpcErr =>
          -- The status is set before the session is looked up, the time is not.
          { manager :=
              { m with
                confirmations := m.confirmations.map fun d =>
                  if d.confirmationID = id then { d with status := .approved } else d }
            result := .error rpcErr }
        | .ok session =>
          { manager := (m.resolve now id .approved).addCapabilities now c.sessionID session
              c.capabilities
            result := .ok { c with status := .approved, resolvedAt := some now } }
    else if decision = "deny" ∨ decision = "denied" then
      { manager := (m.resolve now id .denied).finishAwaitingOperationLocked now c.operationID
          .failed (confirmationError "USER_DENIED" "the user denied this browser action" c)
        result := .ok { c with status := .denied, resolvedAt := some now } }
    else
      { manager := m
        result := .error (invalidParams "decision must be approve or deny" .empty) }

/-- The confirmation of an action that has an id. -/
def actionConfirmation (m : Manager κ) (id : String) : Option Confirmation :=
  (m.confirmations.find? (·.confirmationID = id)).filter (·.kind = .action)

/-- The error that asks for a confirmation. -/
def confirmationRequired (message : String) (retryable : Bool)
    (details : List (String × Json)) : RPCError :=
  newError codeConfirmationNeeded "CONFIRMATION_REQUIRED" message retryable (.ofFields details)

/-- `AuthorizeActionConfirmation`: whether a confirmation has been given for exactly this
action; `formatTime` prints a time in an error. -/
def authorizeActionConfirmation (m : Manager κ) (now : Time) (formatTime : Time → String)
    (id sessionID tabID browserInstanceID requestHash : String) :
    Locked κ (Except RPCError Confirmation) :=
  match m.actionConfirmation id with
  | none =>
    { manager := m
      result := .error (confirmationRequired "a matching trusted action confirmation is required"
        false [("confirmationId", .str id)]) }
  | some c =>
    if c.sessionID ≠ sessionID ∨ c.tabID ≠ tabID ∨ c.browserInstanceID ≠ browserInstanceID ∨
        c.requestHash ≠ requestHash then
      { manager := m
        result := .error (newError codeCapabilityDenied "PERMISSION_DENIED"
          "confirmation is not bound to this exact browser action" false
          (.ofFields [("confirmationId", .str id)])) }
    -- Any confirmation that is too old is resolved to `expired`, also one that was denied.
    else if c.expiresAt ≤ now then
      { manager := (m.resolve now id .expired).finishAwaitingOperationLocked now c.operationID
          .failed (confirmationError "CONFIRMATION_EXPIRED"
            "confirmation expired before the action executed" c)
        result := .error (confirmationRequired "confirmation expired before the action executed"
          false [("confirmationId", .str id)]) }
    else
      match c.status with
      -- A consumed confirmation authorizes again: it is consumed by the execution.
      | .approved | .consumed => { manager := m, result := .ok c }
      | .denied =>
        { manager := m
          result := .error (newError codeConfirmationNeeded "USER_DENIED"
            "the user denied this browser action" false
            (.ofFields [("confirmationId", .str id)])) }
      | _ =>
        { manager := m
          result := .error (confirmationRequired "the action is waiting for trusted UI approval"
            true [("confirmationId", .str id), ("expiresAt", .str (formatTime c.expiresAt))]) }

/-- `ConsumeActionConfirmation`: an approval lets one action through. -/
def consumeActionConfirmation (m : Manager κ) (id : String) : Locked κ (Option RPCError) :=
  match m.actionConfirmation id with
  | none =>
    { manager := m
      result := some (confirmationRequired "action confirmation does not exist" false
        [("confirmationId", .str id)]) }
  | some c =>
    match c.status with
    -- Consumed once; a second time changes nothing.
    | .approved =>
      { manager :=
          { m with
            confirmations := m.confirmations.map fun d =>
              if d.confirmationID = id then { d with status := .consumed } else d }
        result := none }
    | .consumed => { manager := m, result := none }
    | status =>
      { manager := m
        result := some (confirmationRequired "action confirmation is not approved" false
          [("confirmationId", .str id), ("status", .str status.text)]) }

/-! ### Artifacts -/

/-- The error for an artifact that is not there any more. -/
def artifactExpired (id : String) : RPCError :=
  newError codeArtifactNotFound "ARTIFACT_EXPIRED" "artifact does not exist or has expired" false
    (.ofFields [("artifactId", .str id)])

/-- The second critical section of `StoreArtifact`, for an artifact whose file is written. The
first one only looks whether the session is open. -/
def storeArtifact (m : Manager κ) (artifact : Artifact) : Locked κ (Except RPCError Artifact) :=
  let stored :=
    { m with artifacts := Function.update m.artifacts artifact.artifactID (some artifact) }
  if artifact.sessionID = "" then { manager := stored, result := .ok artifact }
  else
    match m.openSessionLocked artifact.sessionID with
    | .error rpcErr => { manager := m, result := .error rpcErr }
    | .ok _ => { manager := stored, result := .ok artifact }

/-- The critical section of `DeleteArtifact`; the file of the artifact is removed after it. -/
def deleteArtifact (m : Manager κ) (id : String) : Locked κ (Except RPCError Artifact) :=
  match m.artifacts id with
  | none => { manager := m, result := .error (artifactExpired id) }
  | some artifact =>
    { manager := { m with artifacts := Function.update m.artifacts id none }
      result := .ok artifact }

/-! ### The janitor -/

/-- Records that are over for more than an hour are purged. -/
def purge (m : Manager κ) (now : Time) : Manager κ :=
  { m with
    operations := fun id => (m.operations id).filter fun r =>
      !((m.records r).status ≠ .running && hour < now - (m.records r).completedAt) }

/-- Artifacts that have run out are deleted. -/
def expireArtifacts (m : Manager κ) (now : Time) : Manager κ :=
  { m with artifacts := fun id => (m.artifacts id).filter fun a => !decide (a.expiresAt < now) }

/-- Expires the pending confirmations that have run out, and fails their operations. -/
def expireConfirmations (m : Manager κ) (now : Time) : Manager κ :=
  (m.confirmations.filter (·.overdue now)).foldl
    (fun m c => (m.resolve now c.confirmationID .expired).finishAwaitingOperationLocked now
      c.operationID .failed (confirmationError "CONFIRMATION_EXPIRED" "confirmation expired" c)) m

/-- One tick of the janitor. -/
def janitor (m : Manager κ) (now : Time) : Locked κ Unit :=
  let p := fun l : Lease => decide (l.expiresAt < now)
  { manager := ((((m.cancelLeaseOperations now p "lease expired").removeLeases p).purge
      now).expireArtifacts now).expireConfirmations now
    result := ()
    cancelledQueues := m.queuesOf p "lease expired"
    expired := m.selectLeases p }

end Manager

end BrowserControl.Core
